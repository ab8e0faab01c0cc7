/-
What the payload hash binds.  Hashes agree exactly when the written forms do,
and the written form forgets two things: the order of members, and whether a
character beyond the basic plane was one character or its two surrogates.
-/
import QwedA2A.JsonReading
import QwedA2A.SignedClaims

namespace QwedA2A

open PyJson

variable {Token : Type} {isText : PyStr → Prop} {isFloat : ℚ → PyStr → Prop}

/-- No two ASCII texts have the same digest. -/
def CryptoLib.CollisionFree (lib : CryptoLib Token) : Prop :=
  ∀ s t, IsAscii s → IsAscii t → lib.sha256Hex s = lib.sha256Hex t → s = t

/-- Between two payloads: values that are the same up to member order are hashed
alike, others never are, and no token that attests the one is accepted for a
context that carries the other. -/
structure PayloadBound (lib : CryptoLib Token) (left right : PyVal) : Prop where
  same_hash : SameValue left right → payloadHash lib left = payloadHash lib right
  same_value : ∀ hash, payloadHash lib left = .ok hash →
    payloadHash lib right = .ok hash → SameValue left right
  attested : ∀ {R : Type} [ReplayRegistry R] (env : Env)
    (service : A2ACryptoService R) (token : Token) (context : AttestationContext)
    (trustedIssuers : PyVal) (decodeNow registerNow : ℚ) (result : VerifyResult)
    (registry : R) (claims : PyDict) (hash : PyStr),
    payloadHash lib left = .ok hash → context.payload = right →
    verifyAttestation lib env service token context trustedIssuers decodeNow
        registerNow = .ok (result, registry) →
    result.valid = true → result.claims = some claims →
    dictGet claims (py "sub") = some (.str hash) → SameValue left right

theorem isAscii_append {s t : PyStr} (hs : IsAscii s) (ht : IsAscii t) :
    IsAscii (s ++ t) := by
  intro c hc
  rcases List.mem_append.mp hc with hc | hc
  · exact hs c hc
  · exact ht c hc

theorem isAscii_hexDigit (n : ℕ) : (hexDigit n).val < 0x80 := by
  have hlt : n % 16 < 16 := Nat.mod_lt n (by omega)
  rw [hexDigit]
  split_ifs with hdigit
  · have hval : (Fin.ofNat 0x110000 (0x30 + n % 16)).val = 0x30 + n % 16 :=
      Nat.mod_eq_of_lt (by omega)
    rw [hval]
    omega
  · have hval : (Fin.ofNat 0x110000 (0x57 + n % 16)).val = 0x57 + n % 16 :=
      Nat.mod_eq_of_lt (by omega)
    rw [hval]
    omega

theorem isAscii_unicodeEscape (n : ℕ) : IsAscii (unicodeEscape n) := by
  refine isAscii_append (by decide) ?_
  intro c hc
  simp only [List.mem_cons, List.not_mem_nil, or_false] at hc
  rcases hc with rfl | rfl | rfl | rfl <;> exact isAscii_hexDigit _

theorem isAscii_quote {s : PyStr} (hs : IsUnits s) : IsAscii (quote true s) := by
  refine isAscii_append (isAscii_append (by decide) ?_) (by decide)
  intro c hc
  obtain ⟨d, hd, hc⟩ := List.mem_flatMap.mp hc
  rcases escapeChar_cases (hs d hd) with ⟨kind, _, hkind, _, htext⟩ |
    ⟨_, _, hplain, htext⟩ | htext
  · rw [htext, List.mem_cons, List.mem_singleton] at hc
    rcases hc with rfl | rfl
    · decide
    · exact hkind
  · rw [htext, List.mem_singleton] at hc
    rw [hc]
    exact hplain
  · rw [htext] at hc
    exact isAscii_unicodeEscape d.val c hc

theorem isAscii_of_number {s : PyStr} (hs : ∀ c ∈ s, isNumberChar c = true) :
    IsAscii s := by
  intro c hc
  have hnumber := hs c hc
  simp only [isNumberChar, Bool.or_eq_true, Bool.and_eq_true,
    decide_eq_true_eq] at hnumber
  omega

theorem isAscii_separated {sep : PyStr} {parts : List PyStr} (hsep : IsAscii sep)
    (hparts : ∀ part ∈ parts, IsAscii part) :
    IsAscii (UniqueReading.separated sep parts) := by
  induction parts with
  | nil => simp [UniqueReading.separated, IsAscii]
  | cons part rest ih =>
      cases rest with
      | nil => exact hparts part (by simp)
      | cons next rest =>
          exact isAscii_append (isAscii_append (hparts part (by simp)) hsep)
            (ih fun later hlater => hparts later (by simp [hlater]))

/-- The rendering of a written value is ASCII text. -/
theorem isAscii_render (hrepr : FloatRepr isFloat) {value : PyVal}
    (h : Written isFloat value) : IsAscii (render value) := by
  induction h with
  | pyNone => decide
  | bool b => cases b <;> decide
  | int n => exact isAscii_of_number fun c => isNumberChar_of_mem_intText
  | float hfloat => exact isAscii_of_number (hrepr.number hfloat)
  | str hs => exact isAscii_quote hs
  | list hitems ih =>
      rw [render_list]
      refine isAscii_append (by decide) (isAscii_append ?_ (by decide))
      refine isAscii_separated (by decide) ?_
      intro part hpart
      obtain ⟨item, hitem, rfl⟩ := List.mem_map.mp hpart
      exact ih item hitem
  | dict hnames hmembers ih =>
      rw [render_dict]
      refine isAscii_append (by decide) (isAscii_append ?_ (by decide))
      refine isAscii_separated (by decide) ?_
      intro part hpart
      obtain ⟨member, hmember, rfl⟩ := List.mem_map.mp hpart
      exact isAscii_append (isAscii_append (isAscii_quote (hnames member hmember))
        (by decide)) (ih member hmember)

/-- The payload hash returns within the encoder's limits, with the digest of the
rendering. -/
theorem payloadHash_eq_ok_iff (lib : CryptoLib Token) {value : PyVal}
    (h : JsonValue isText isFloat value) (hash : PyStr) :
    payloadHash lib value = .ok hash ↔
      withinLimits lib.jsonDepth value = true ∧
        hash = py "sha256:" ++ lib.sha256Hex (render (written value)) := by
  rw [payloadHash]
  exact bind_ok_iff (encode_eq_ok_iff h _) _ hash

/-- Payloads hash alike exactly when their written forms agree. -/
theorem written_eq_of_hash {lib : CryptoLib Token} (hrepr : FloatRepr isFloat)
    (hfree : lib.CollisionFree) {left right : PyVal}
    (hleft : JsonValue isText isFloat left)
    (hright : JsonValue isText isFloat right) {hash : PyStr}
    (hhash : payloadHash lib left = .ok hash)
    (hhash' : payloadHash lib right = .ok hash) : written left = written right := by
  obtain ⟨_, rfl⟩ := (payloadHash_eq_ok_iff lib hleft _).mp hhash
  obtain ⟨_, hdigest⟩ := (payloadHash_eq_ok_iff lib hright _).mp hhash'
  have hwritten := written_written hleft
  have hwritten' := written_written hright
  have htext : render (written left) = render (written right) :=
    hfree _ _ (isAscii_render hrepr hwritten) (isAscii_render hrepr hwritten')
      (List.append_cancel_left hdigest)
  have hend : Stops [] := by simp [Stops]
  exact (render_readsAs hrepr hwritten hwritten' [] [] hend hend
    (by rw [htext])).1

theorem parseEnvelope_sub {lib : CryptoLib Token} {claims : PyDict}
    {envelope : AttestationEnvelope}
    (h : parseEnvelope lib claims = some envelope) :
    dictGet claims (py "sub") = some (.str envelope.sub) := by
  rw [parseEnvelope] at h
  split at h
  next hsub _ _ _ =>
    cases h
    exact hsub
  next => cases h

/-- The subject of accepted claims is the hash of the context's payload. -/
theorem accepted_subject {R : Type} [ReplayRegistry R] {lib : CryptoLib Token}
    {env : Env} {service : A2ACryptoService R} {token : Token}
    {context : AttestationContext} {trustedIssuers : PyVal}
    {decodeNow registerNow : ℚ} {result : VerifyResult} {registry : R}
    {claims : PyDict} {hash : PyStr}
    (hverify : verifyAttestation lib env service token context trustedIssuers
      decodeNow registerNow = .ok (result, registry))
    (hvalid : result.valid = true) (hclaims : result.claims = some claims)
    (hsub : dictGet claims (py "sub") = some (.str hash)) :
    payloadHash lib context.payload = .ok hash := by
  rcases verifyAttestation_ok_iff.mp hverify with ⟨reason, _, rfl, _⟩ |
    ⟨pending, hbegin, hfinish⟩
  · cases hvalid
  · obtain ⟨issuers, candidate, decoded, parsed, hreaches⟩ :=
      beginVerification_ok hbegin
    have hraw : claims = pending.rawClaims := by
      rw [finishVerification] at hfinish
      split_ifs at hfinish with haccepted
      · cases hfinish
        exact (Option.some.inj hclaims).symm
      · cases hfinish
        cases hvalid
    have hsubject := parseEnvelope_sub hreaches.verified.typed
    rw [← hraw, hsub, Option.some.injEq, PyVal.str.injEq] at hsubject
    rw [hsubject]
    exact hreaches.fit.payload

/-- Payloads are bound to each other when only the same value has their hash. -/
theorem payloadBound_of_hash {lib : CryptoLib Token} {left right : PyVal}
    (hleft : JsonValue isText isFloat left)
    (hright : JsonValue isText isFloat right)
    (hsame : ∀ hash, payloadHash lib left = .ok hash →
      payloadHash lib right = .ok hash → SameValue left right) :
    PayloadBound lib left right := by
  refine ⟨?_, hsame, ?_⟩
  · intro hvalue
    rw [payloadHash, payloadHash, encode_eq_of_same hleft hright hvalue]
  · intro R _ env service token context trustedIssuers decodeNow registerNow
      result registry claims hash hhash hcontext hverify hvalid hclaims hsub
    have hsubject := accepted_subject hverify hvalid hclaims hsub
    rw [hcontext] at hsubject
    exact hsame hash hhash hsubject

/-- The payload hash binds two payloads exactly when values that are written
alike are the same up to member order; beyond the encoder's limits there is no
hash to compare. -/
theorem payload_bound_iff {lib : CryptoLib Token} (hrepr : FloatRepr isFloat)
    (hfree : lib.CollisionFree) {left right : PyVal}
    (hleft : JsonValue isText isFloat left)
    (hright : JsonValue isText isFloat right) :
    PayloadBound lib left right ↔
      (withinLimits lib.jsonDepth left = true →
        withinLimits lib.jsonDepth right = true →
        written left = written right → SameValue left right) := by
  constructor
  · intro hbound hlimits hlimits' hwritten
    have hhash := (payloadHash_eq_ok_iff lib hleft _).mpr ⟨hlimits, rfl⟩
    have hhash' := (payloadHash_eq_ok_iff lib hright _).mpr ⟨hlimits', rfl⟩
    rw [← hwritten] at hhash'
    exact hbound.same_value _ hhash hhash'
  · intro hcondition
    apply payloadBound_of_hash hleft hright
    intro hash hhash hhash'
    exact hcondition ((payloadHash_eq_ok_iff lib hleft _).mp hhash).1
      ((payloadHash_eq_ok_iff lib hright _).mp hhash').1
      (written_eq_of_hash hrepr hfree hleft hright hhash hhash')

def readChar : PyStr → Option (PyChar × PyStr)
  | [] => none
  | c :: rest =>
      if c.val < 0xD800 ∨ 0xDBFF < c.val then some (c, rest)
      else
        match rest with
        | [] => none
        | d :: rest =>
            some (Fin.ofNat _ ((c.val - 0xD800) * 1024 + (d.val - 0xDC00) +
              0x10000), rest)

theorem readChar_charUnits (c : PyChar) (rest : PyStr)
    (hvalid : c.val < 0xD800 ∨ 0xDFFF < c.val) :
    readChar (charUnits c ++ rest) = some (c, rest) := by
  have hlt := c.isLt
  rw [charUnits]
  split_ifs with hbmp
  · have hplain : c.val < 0xD800 ∨ 0xDBFF < c.val := by omega
    simp [readChar, hplain]
  · have hval : ∀ n, n < 0x110000 → (Fin.ofNat 0x110000 n).val = n :=
      fun n hn => Nat.mod_eq_of_lt hn
    have hlead := hval (0xD800 + (c.val - 0x10000) / 1024) (by omega)
    have htrail := hval (0xDC00 + (c.val - 0x10000) % 1024) (by omega)
    have hsum : (0xD800 + (c.val - 0x10000) / 1024 - 0xD800) * 1024 +
        (0xDC00 + (c.val - 0x10000) % 1024 - 0xDC00) + 0x10000 = c.val := by
      omega
    simp only [List.cons_append, List.nil_append, readChar, hlead, htrail, hsum,
      Fin.ofNat_val_eq_self]
    rw [if_neg (by omega)]

theorem charUnits_head (c : PyChar) (hvalid : c.val < 0xD800 ∨ 0xDFFF < c.val) :
    ∃ first rest, charUnits c = first :: rest ∧ first ≠ 0xDC00 := by
  have hlt := c.isLt
  rw [charUnits]
  split_ifs with hbmp
  · refine ⟨c, [], rfl, ?_⟩
    rintro rfl
    exact absurd hvalid (by decide)
  · refine ⟨_, _, rfl, ?_⟩
    intro heq
    have hval : (Fin.ofNat 0x110000 (0xD800 + (c.val - 0x10000) / 1024)).val =
        0xD800 + (c.val - 0x10000) / 1024 := Nat.mod_eq_of_lt (by omega)
    rw [heq] at hval
    have hfirst : (0xDC00 : PyChar).val = 0xDC00 := rfl
    omega

/-- Text without lone surrogates is determined by its code units. -/
theorem units_injective {s t : PyStr} (hs : isUnicode s = true)
    (ht : isUnicode t = true) (heq : units s = units t) : s = t := by
  have hvalid : ∀ {u : PyStr}, isUnicode u = true →
      ∀ c ∈ u, c.val < 0xD800 ∨ 0xDFFF < c.val := by
    intro u hu c hc
    simpa using List.all_eq_true.mp hu c hc
  have hstop : s.flatMap charUnits ++ [(0xDC00 : PyChar)] =
      t.flatMap charUnits ++ [0xDC00] := congrArg (· ++ [0xDC00]) heq
  exact (UniqueReading.codes_injective readChar_charUnits charUnits_head
    (hvalid hs) (hvalid ht) hstop).1

theorem forall₂_of_map_eq {α β : Type} {f : α → β} {R : α → α → Prop}
    {xs ys : List α} (heq : xs.map f = ys.map f)
    (hrel : ∀ x ∈ xs, ∀ y ∈ ys, f x = f y → R x y) : List.Forall₂ R xs ys := by
  induction xs generalizing ys with
  | nil =>
      rw [List.map_nil, eq_comm, List.map_eq_nil_iff] at heq
      rw [heq]
      exact .nil
  | cons x xs ih =>
      cases ys with
      | nil => cases heq
      | cons y ys =>
          rw [List.map_cons, List.map_cons, List.cons.injEq] at heq
          exact .cons (hrel x (by simp) y (by simp) heq.1)
            (ih heq.2 fun x' hx y' hy => hrel x' (by simp [hx]) y' (by simp [hy]))

theorem exists_of_forall₂ {α β : Type} {R : α → β → Prop} {xs : List α}
    {ys : List β} (h : List.Forall₂ R xs ys) {x : α} (hx : x ∈ xs) :
    ∃ y ∈ ys, R x y := by
  induction h with
  | nil => cases hx
  | cons hhead htail ih =>
      rcases List.mem_cons.mp hx with rfl | hx
      · exact ⟨_, List.mem_cons_self, hhead⟩
      · obtain ⟨y, hy, hxy⟩ := ih hx
        exact ⟨y, List.mem_cons_of_mem _ hy, hxy⟩

/-- Over texts that their code units determine, the written form forgets the member
order alone. -/
theorem sameValue_of_units
    (hunits : ∀ {s t}, isText s → isText t → units s = units t → s = t)
    {left right : PyVal} (hleft : JsonValue isText isFloat left)
    (hright : JsonValue isText isFloat right)
    (hwritten : written left = written right) : SameValue left right := by
  induction hleft generalizing right with
  | pyNone => cases hright <;> simp_all [written, SameValue]
  | bool b => cases hright <;> simp_all [written, SameValue]
  | int n => cases hright <;> simp_all [written, SameValue]
  | float hfloat => cases hright <;> simp_all [written, SameValue]
  | str hs =>
      cases hright with
      | str ht =>
          simp only [written, PyVal.str.injEq] at hwritten
          rw [SameValue]
          exact hunits hs ht hwritten
      | _ => simp [written] at hwritten
  | list hitems ih =>
      cases hright with
      | list hothers =>
          rw [written, written, writtenItems_eq_map, writtenItems_eq_map,
            PyVal.list.injEq] at hwritten
          rw [sameValue_list]
          exact forall₂_of_map_eq hwritten fun x hx y hy hxy =>
            ih x hx (hothers y hy) hxy
      | _ => simp [written] at hwritten
  | dict hdistinct hnames hmembers ih =>
      cases hright with
      | dict hdistinct' hnames' hothers =>
          rw [written_dict, written_dict, PyVal.dict.injEq] at hwritten
          have hmap := objectEntries_injective hwritten
          rename_i xs ys
          have hpairs : List.Forall₂ (fun x y => x.1 = y.1 ∧ SameValue x.2 y.2)
              (inKeyOrder xs) (inKeyOrder ys) := by
            refine forall₂_of_map_eq hmap ?_
            intro x hx y hy hxy
            rw [Prod.mk.injEq] at hxy
            rw [mem_inKeyOrder] at hx hy
            exact ⟨hunits (hnames x hx) (hnames' y hy) hxy.1,
              ih x hx (hothers y hy) hxy.2⟩
          rw [sameValue_dict]
          constructor
          · have hlength := hpairs.length_eq
            rwa [length_inKeyOrder, length_inKeyOrder] at hlength
          · intro x hx
            obtain ⟨y, hy, hxy⟩ := exists_of_forall₂ hpairs (mem_inKeyOrder.mpr hx)
            exact ⟨y, mem_inKeyOrder.mp hy, hxy⟩
      | list hothers =>
          rw [written_dict, written] at hwritten
          cases hwritten
      | _ => simp [written] at hwritten

/-- Without lone surrogates equal hashes mean the same value. -/
theorem sameValue_of_hash {lib : CryptoLib Token} (hrepr : FloatRepr isFloat)
    (hfree : lib.CollisionFree) {left right : PyVal}
    (hleft : JsonValue (fun s => isUnicode s = true) isFloat left)
    (hright : JsonValue (fun s => isUnicode s = true) isFloat right) {hash : PyStr}
    (hhash : payloadHash lib left = .ok hash)
    (hhash' : payloadHash lib right = .ok hash) : SameValue left right :=
  sameValue_of_units units_injective hleft hright
    (written_eq_of_hash hrepr hfree hleft hright hhash hhash')

/-- Payloads are bound to each other in particular when they hold no lone
surrogate, as when they were decoded from UTF-8. -/
theorem payload_bound_of_unicode {lib : CryptoLib Token}
    (hrepr : FloatRepr isFloat) (hfree : lib.CollisionFree) {left right : PyVal}
    (hleft : JsonValue (fun s => isUnicode s = true) isFloat left)
    (hright : JsonValue (fun s => isUnicode s = true) isFloat right) :
    PayloadBound lib left right := by
  apply payloadBound_of_hash hleft hright
  intro hash hhash hhash'
  exact sameValue_of_hash hrepr hfree hleft hright hhash hhash'

theorem Reference.collisionFree : Reference.lib.CollisionFree := by
  have hsame : ∀ s, IsAscii s → Reference.lib.sha256Hex s = s := by
    intro s hs
    have hmap : s.map (fun c : PyChar => Fin.ofNat 0x110000 (c.val % 128)) =
        s.map id := by
      apply List.map_congr_left
      intro c hc
      have hlt := hs c hc
      apply Fin.ext
      change c.val % 128 % 0x110000 = c.val
      omega
    exact hmap.trans (List.map_id s)
  intro s t hs ht heq
  rwa [hsame s hs, hsame t ht] at heq

def oneAndAHalf (x : ℚ) (repr : PyStr) : Prop := x = 3 / 2 ∧ repr = py "1.5"

theorem floatRepr_oneAndAHalf : FloatRepr oneAndAHalf where
  injective hx hy := hx.1.trans hy.1.symm
  nonempty h := by
    rw [h.2]
    decide
  number h := by
    rw [h.2]
    intro c hc
    have hall : ∀ c ∈ py "1.5", isNumberChar c = true :=
      List.all_eq_true.mp (by decide)
    exact hall c hc
  not_int h n heq := by
    have hpoint : (0x2E : PyChar) ∈ intText n := by
      rw [← heq, h.2]
      decide
    rcases mem_intText hpoint with hdigit | hminus
    · exact absurd hdigit (by decide)
    · exact absurd hminus (by decide)

def order (swapped : Bool) : List (PyStr × PyVal) :=
  let amount : PyStr × PyVal := (py "amount", .float (.rat (3 / 2)) (py "1.5"))
  let items : PyStr × PyVal := (py "items", .list [.int 1, .bool true])
  if swapped then [items, amount] else [amount, items]

theorem order_members_json {swapped : Bool} {member : PyStr × PyVal}
    (hmember : member ∈ order swapped) :
    JsonValue (fun _ => True) oneAndAHalf member.2 := by
  have hitems : JsonValue (fun _ => True) oneAndAHalf
      (.list [.int 1, .bool true]) := by
    refine .list ?_
    simp only [List.mem_cons, List.not_mem_nil, or_false, forall_eq_or_imp,
      forall_eq]
    exact ⟨.int 1, .bool true⟩
  have heither : member = (py "amount", .float (.rat (3 / 2)) (py "1.5")) ∨
      member = (py "items", .list [.int 1, .bool true]) := by
    cases swapped
    · simpa [order] using hmember
    · simpa [order, or_comm] using hmember
  rcases heither with rfl | rfl
  · exact .float ⟨rfl, rfl⟩
  · exact hitems

theorem order_json (swapped : Bool) :
    JsonValue (fun _ => True) oneAndAHalf (.dict (objectEntries (order swapped))) := by
  refine .dict ?_ (fun _ _ => trivial) (fun _ hmember => order_members_json hmember)
  cases swapped <;> decide

/-- The two orders are bound: they are the same payload. -/
theorem payload_bound_iff_reordered :
    PayloadBound Reference.lib (.dict (objectEntries (order false)))
      (.dict (objectEntries (order true))) :=
  (payload_bound_iff floatRepr_oneAndAHalf Reference.collisionFree
    (order_json false) (order_json true)).mpr fun _ _ _ =>
      sameValue_dict.mpr ⟨rfl, fun x hx =>
        ⟨x, by simpa [order, or_comm] using hx, rfl,
          (order_members_json hx).sameValue_refl⟩⟩

/-- A character beyond the basic plane, and its two surrogates: two payloads
under one hash. -/
theorem not_payloadBound_surrogates :
    let whole : PyVal := .dict (objectEntries [(py "note", .str [0x1F600])])
    let halves : PyVal :=
      .dict (objectEntries [(py "note", .str [0xD83D, 0xDE00])])
    JsonValue (fun _ => True) oneAndAHalf whole ∧
      JsonValue (fun _ => True) oneAndAHalf halves ∧
      ¬ PayloadBound Reference.lib whole halves := by
  have hjson : ∀ s, JsonValue (fun _ => True) oneAndAHalf
      (.dict (objectEntries [(py "note", .str s)])) := by
    intro s
    refine .dict (List.nodup_singleton _) (fun _ _ => trivial) ?_
    intro member hmember
    rw [List.mem_singleton.mp hmember]
    exact .str trivial
  refine ⟨hjson _, hjson _, ?_⟩
  intro hbound
  obtain ⟨_, hsame⟩ := sameValue_dict.mp (hbound.same_value _ rfl rfl)
  obtain ⟨y, hy, _, hvalue⟩ := hsame _ (List.mem_singleton.mpr rfl)
  rw [List.mem_singleton.mp hy, SameValue] at hvalue
  exact absurd hvalue (by decide)

end QwedA2A
