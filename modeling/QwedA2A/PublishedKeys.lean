/-
A gateway's key on its way to its peers.  The JWKS response is pasted, as the text it
is, into the trusted-issuer configuration of another gateway, which reads out of it
the key that the response was written from.
-/
import QwedA2A.Endpoints
import QwedA2A.JsonRoundTrip
import QwedA2A.CandidateOrder

namespace QwedA2A

open PyJson Radix64

variable {Token R : Type}

/-- Public key set for JWT verification by external consumers. -/
def jwksEndpoint (lib : CryptoLib Token) (env : Env)
    (interceptor : Except PyExc (A2ACryptoService R)) : Except RouteExc PyVal :=
  match interceptor >>= getPublicKeyJwk lib env with
  | .ok jwk => .ok (.dict [(.str (py "keys"), .list [jwk])])
  | .error exc =>
      if exc.type = .runtimeError ∨ exc.type = .recursionError then
        .error signingKeyUnavailable
      else .error (.other exc)

/-- A character that may stand in a configuration: no control character besides the
blanks, and no surrogate. -/
def Plain (c : PyChar) : Prop :=
  (0x20 ≤ c.val ∨ isBlank c = true) ∧ (c.val < 0xD800 ∨ 0xDFFF < c.val)

instance (c : PyChar) : Decidable (Plain c) :=
  inferInstanceAs (Decidable (_ ∧ _))

def PlainText (text : PyStr) : Prop := ∀ c ∈ text, Plain c

instance (text : PyStr) : Decidable (PlainText text) :=
  List.decidableBAll Plain text

theorem PlainText.append {s t : PyStr} (hs : PlainText s) (ht : PlainText t) :
    PlainText (s ++ t) := by
  intro c hc
  rcases List.mem_append.mp hc with hleft | hright
  · exact hs c hleft
  · exact ht c hright

theorem PlainText.joinWith {sep : PyStr} (hsep : PlainText sep) {parts : List PyStr}
    (hparts : ∀ part ∈ parts, PlainText part) : PlainText (joinWith sep parts) := by
  induction parts with
  | nil => exact fun c hc => nomatch hc
  | cons part rest ih =>
      have hrest := ih fun later hlater => hparts later (List.mem_cons_of_mem _ hlater)
      cases rest with
      | nil => exact hparts part List.mem_cons_self
      | cons next rest =>
          rw [QwedA2A.joinWith]
          · exact ((hparts part List.mem_cons_self).append hsep).append hrest
          · exact List.cons_ne_nil _ _

theorem plain_hexDigit (n : ℕ) : Plain (hexDigit n) := by
  have hall : ∀ k < 16, Plain (hexDigit k) := by decide +kernel
  have hmod : hexDigit n = hexDigit (n % 16) := by
    rw [hexDigit, hexDigit, Nat.mod_mod]
  rw [hmod]
  exact hall _ (Nat.mod_lt _ (by decide))

theorem plainText_unicodeEscape (n : ℕ) : PlainText (unicodeEscape n) := by
  have hmark : PlainText (py "\\u") := by decide +kernel
  refine hmark.append fun c hc => ?_
  simp only [List.mem_cons, List.not_mem_nil, or_false] at hc
  rcases hc with rfl | rfl | rfl | rfl <;> exact plain_hexDigit _

theorem plainText_escapeChar (ensureAscii : Bool) {c : PyChar}
    (hunicode : c.val < 0xD800 ∨ 0xDFFF < c.val) :
    PlainText (escapeChar ensureAscii c) := by
  rw [escapeChar]
  split_ifs with _ _ _ _ _ _ _ hcontrol hraw
  iterate 7 decide +kernel
  · exact plainText_unicodeEscape _
  · intro found hfound
    rw [List.mem_singleton.mp hfound]
    exact ⟨Or.inl (Nat.le_of_not_lt hcontrol), hunicode⟩
  · exact plainText_unicodeEscape _
  · exact (plainText_unicodeEscape _).append (plainText_unicodeEscape _)

theorem plainText_quote (ensureAscii : Bool) {s : PyStr} (h : isUnicode s = true) :
    PlainText (quote ensureAscii s) := by
  have hmark : PlainText (py "\"") := by decide +kernel
  refine (hmark.append fun c hc => ?_).append hmark
  obtain ⟨char, hchar, hc⟩ := List.mem_flatMap.mp hc
  exact plainText_escapeChar ensureAscii (isUnicode_iff.mp h char hchar) c hc

theorem plainText_intText (n : ℤ) : PlainText (intText n) := by
  have hdigits : ∀ m, PlainText (natText m) := by
    intro m c hc
    have hdigit := isDigit_of_mem_natText hc
    rw [PyDecimal.isDigit, decide_eq_true_eq] at hdigit
    exact ⟨Or.inl (by omega), Or.inl (by omega)⟩
  have hminus : PlainText (py "-") := by decide +kernel
  rw [intText]
  split_ifs
  · exact hminus.append (hdigits _)
  · exact hdigits _

theorem plainText_blanks {pad : PyStr} (h : pad.all isBlank = true) : PlainText pad := by
  intro c hc
  have hblank := List.all_eq_true.mp h c hc
  refine ⟨Or.inr hblank, Or.inl ?_⟩
  simp only [isBlank, Bool.or_eq_true, decide_eq_true_eq] at hblank
  omega

/-- Whatever is written without floats may stand in a configuration. -/
theorem plainText_encode {style : Style} {itemPad keyPad : PyStr}
    (hstyle : style.Separates itemPad keyPad) {value : PyVal}
    (h : JsonValue (fun s => isUnicode s = true) (fun _ _ => False) value) {depth : ℕ}
    {text : PyStr} (hencode : encode style depth value = .ok text) : PlainText text := by
  have hitem : PlainText style.itemSeparator := by
    have hcomma : PlainText [0x2C] := by decide +kernel
    rw [hstyle.item]
    exact hcomma.append (plainText_blanks hstyle.itemBlank)
  have hkey : PlainText style.keySeparator := by
    have hcolon : PlainText [0x3A] := by decide +kernel
    rw [hstyle.key]
    exact hcolon.append (plainText_blanks hstyle.keyBlank)
  induction h generalizing depth text with
  | pyNone => cases hencode; decide +kernel
  | bool b => cases b <;> cases hencode <;> decide +kernel
  | int n =>
      rw [encode, intRepr] at hencode
      split_ifs at hencode
      cases hencode
      exact plainText_intText n
  | float hfloat => exact hfloat.elim
  | str hunicode =>
      cases hencode
      exact plainText_quote _ hunicode
  | list hitems ih =>
      cases depth with
      | zero => cases hencode
      | succ depth =>
          obtain ⟨parts, hparts, rfl⟩ := encode_list_ok hencode
          have hopen : PlainText (py "[") := by decide +kernel
          have hclose : PlainText (py "]") := by decide +kernel
          refine (hopen.append (hitem.joinWith fun part hpart => ?_)).append hclose
          obtain ⟨item, hmem, hwritten⟩ := exists_of_forall₂ hparts.flip hpart
          exact ih item hmem hwritten
  | dict hdistinct hnames hmembers ih =>
      cases depth with
      | zero => cases hencode
      | succ depth =>
          obtain ⟨parts, hparts, rfl⟩ := encode_dict_ok hencode
          have hopen : PlainText (py "\x7b") := by decide +kernel
          have hclose : PlainText (py "\x7d") := by decide +kernel
          refine (hopen.append (hitem.joinWith fun part hpart => ?_)).append hclose
          obtain ⟨member, hordered, written, hwritten, rfl⟩ :=
            exists_of_forall₂ hparts.flip hpart
          have hmem := (style.ordered_perm _).mem_iff.mp hordered
          exact ((plainText_quote _ (hnames member hmem)).append hkey).append
            (ih member hmem hwritten)

theorem strip_padded {before after text : PyStr}
    (hbefore : before.all PyChar.isSpace = true)
    (hafter : after.all PyChar.isSpace = true) {first last : PyChar} {rest most : PyStr}
    (hfirst : text = first :: rest) (hopen : first.isSpace = false)
    (hlast : text = most ++ [last]) (hclose : last.isSpace = false) :
    strip (before ++ text ++ after) = text := by
  have hfront : (before ++ text ++ after).dropWhile PyChar.isSpace = text ++ after := by
    rw [List.append_assoc, List.dropWhile_append_of_pos (List.all_eq_true.mp hbefore),
      hfirst, List.cons_append, List.dropWhile_cons_of_neg (by simp [hopen])]
  have hback : (text ++ after).reverse.dropWhile PyChar.isSpace = text.reverse := by
    rw [List.reverse_append, List.dropWhile_append_of_pos fun c hc =>
      List.all_eq_true.mp hafter c (List.mem_reverse.mp hc), hlast,
      List.reverse_append, List.reverse_singleton, List.singleton_append,
      List.dropWhile_cons_of_neg (by simp [hclose])]
  rw [strip, hfront, hback, List.reverse_reverse]

def objectLiteral (members : List PyStr) : PyStr :=
  py "\x7b" ++ joinWith (py ", ") members ++ py "\x7d"

def memberLiteral (ensureAscii : Bool) (name text : PyStr) : PyStr :=
  quote ensureAscii name ++ py ": " ++ text

theorem plainText_objectLiteral {members : List PyStr}
    (h : ∀ member ∈ members, PlainText member) : PlainText (objectLiteral members) := by
  have hopen : PlainText (py "\x7b") := by decide +kernel
  have hclose : PlainText (py "\x7d") := by decide +kernel
  have hsep : PlainText (py ", ") := by decide +kernel
  exact (hopen.append (hsep.joinWith h)).append hclose

theorem plainText_memberLiteral (ensureAscii : Bool) {name text : PyStr}
    (hname : isUnicode name = true) (htext : PlainText text) :
    PlainText (memberLiteral ensureAscii name text) := by
  have hsep : PlainText (py ": ") := by decide +kernel
  exact ((plainText_quote ensureAscii hname).append hsep).append htext

theorem strip_objectLiteral {before after : PyStr} (members : List PyStr)
    (hbefore : before.all PyChar.isSpace = true)
    (hafter : after.all PyChar.isSpace = true) :
    strip (before ++ objectLiteral members ++ after) = objectLiteral members :=
  strip_padded hbefore hafter rfl (by decide) rfl (by decide)

/-- A plain object's text passes the checks of the environment's configuration up to
the limit on its size. -/
theorem sanitizeIssuerConfigJson_object {before after : PyStr} {members : List PyStr}
    (hbefore : before.all PyChar.isSpace = true)
    (hafter : after.all PyChar.isSpace = true)
    (hplain : ∀ member ∈ members, PlainText member) :
    sanitizeIssuerConfigJson (before ++ objectLiteral members ++ after) =
      if issuerConfigMaxBytes < utf8Size (objectLiteral members) then
        .error ⟨.valueError, py "Trusted-issuer config exceeds size limit"⟩
      else .ok (objectLiteral members) := by
  have htext := plainText_objectLiteral hplain
  have hunicode : isUnicode (objectLiteral members) = true :=
    isUnicode_iff.mpr fun c hc => (htext c hc).2
  have hobject : (py "\x7b").isPrefixOf (objectLiteral members) = true := rfl
  have hcontrol : (objectLiteral members).any (fun c => c.val < 0x20 && c.val ≠ 9 &&
      c.val ≠ 10 && c.val ≠ 13) = false := by
    rw [List.any_eq_false]
    intro c hc
    have hc := (htext c hc).1
    simp only [isBlank, Bool.or_eq_true, decide_eq_true_eq] at hc
    simp only [ne_eq, Bool.and_eq_true, decide_eq_true_eq]
    omega
  rw [sanitizeIssuerConfigJson]
  simp only [strip_objectLiteral members hbefore hafter, hunicode, hobject, hcontrol]
  simp

theorem unpaired_of_isUnicode {s : PyStr} (h : isUnicode s = true) : Unpaired s := by
  induction s with
  | nil => exact .nil
  | cons c rest ih =>
      refine (ih (isUnicode_of_suffix (List.suffix_cons c rest) h)).cons fun d _ => ?_
      rintro ⟨hhigh, _⟩
      rw [not_isHigh_of_unicode h List.mem_cons_self] at hhigh
      cases hhigh

theorem PyJson.JsonValue.mono {isText isText' : PyStr → Prop} {isFloat isFloat' : ℚ → PyStr → Prop}
    (htext : ∀ s, isText s → isText' s) (hfloat : ∀ x repr, isFloat x repr → isFloat' x repr)
    {value : PyVal} (h : JsonValue isText isFloat value) :
    JsonValue isText' isFloat' value := by
  induction h with
  | pyNone => exact .pyNone
  | bool b => exact .bool b
  | int n => exact .int n
  | float h => exact .float (hfloat _ _ h)
  | str h => exact .str (htext _ h)
  | list _ ih => exact .list ih
  | dict hdistinct hnames _ ih =>
      exact .dict hdistinct (fun member hmem => htext _ (hnames member hmem)) ih

theorem isUnicode_coordinateText (n : ℕ) :
    isUnicode (coordinateText (bytesBE 32 n)) = true := by
  have hall : ∀ v < 64, (b64UrlChar v).val < 0xD800 := by decide +kernel
  rw [coordinateText_eq bytesBE_lt, isUnicode_iff]
  intro c hc
  obtain ⟨v, hv, rfl⟩ := List.mem_map.mp hc
  exact Or.inl (hall v (sextets_lt bytesBE_lt v hv))

def jwkMembers (pair : KeyPair) : List (PyStr × PyVal) :=
  [(py "kty", .str (py "EC")), (py "crv", .str (py "P-256")),
    (py "x", .str (coordinateText (bytesBE 32 pair.key.publicKey.x))),
    (py "y", .str (coordinateText (bytesBE 32 pair.key.publicKey.y))),
    (py "kid", .str pair.keyId), (py "use", .str (py "sig")),
    (py "alg", .str (py "ES256"))]

/-- The key set that a gateway with this pair answers with. -/
def keySet (pair : KeyPair) : PyVal :=
  .dict (objectEntries [(py "keys", .list [.dict (objectEntries (jwkMembers pair))])])

theorem jwkMembers_names (pair : KeyPair) :
    (jwkMembers pair).map Prod.fst =
      [py "kty", py "crv", py "x", py "y", py "kid", py "use", py "alg"] := rfl

theorem jwkMembers_distinct (pair : KeyPair) :
    ((jwkMembers pair).map Prod.fst).Nodup := by
  rw [jwkMembers_names]
  decide

theorem keySet_json {pair : KeyPair} (hkid : isUnicode pair.keyId = true) :
    JsonValue (fun s => isUnicode s = true) (fun _ _ => False) (keySet pair) := by
  have hkeys : isUnicode (py "keys") = true := by decide
  have hnames : ∀ name ∈ (jwkMembers pair).map Prod.fst, isUnicode name = true := by
    rw [jwkMembers_names]
    decide
  refine .dict (List.nodup_singleton _) ?_ fun member hmember => ?_
  · simpa using hkeys
  rw [List.mem_singleton.mp hmember]
  refine .list fun item hitem => ?_
  rw [List.mem_singleton.mp hitem]
  refine .dict (jwkMembers_distinct pair)
    (fun member hmember => hnames _ (List.mem_map_of_mem hmember)) fun member hmember => ?_
  simp only [jwkMembers, List.mem_cons, List.not_mem_nil, or_false] at hmember
  rcases hmember with rfl | rfl | rfl | rfl | rfl | rfl | rfl
  · exact .str (by decide)
  · exact .str (by decide)
  · exact .str (isUnicode_coordinateText _)
  · exact .str (isUnicode_coordinateText _)
  · exact .str hkid
  · exact .str (by decide)
  · exact .str (by decide)

/-- How deep a writer may go makes no difference to what it writes. -/
theorem encode_keySet {style : Style} {pair : KeyPair} {depth : ℕ} {text : PyStr}
    (h : encode style depth (keySet pair) = .ok text) :
    encode style 3 (keySet pair) = .ok text := by
  have hsingle : ∀ member : PyStr × PyVal, style.ordered [member] = [member] :=
    fun member => List.perm_singleton.mp (style.ordered_perm [member])
  match depth with
  | 0 => cases h
  | 1 =>
      obtain ⟨parts, hparts, rfl⟩ := encode_dict_ok h
      rw [hsingle] at hparts
      obtain ⟨_, _, ⟨_, hlist, _⟩, _⟩ := List.forall₂_cons_left_iff.mp hparts
      cases hlist
  | 2 =>
      obtain ⟨parts, hparts, rfl⟩ := encode_dict_ok h
      rw [hsingle] at hparts
      obtain ⟨_, _, ⟨_, hlist, _⟩, _⟩ := List.forall₂_cons_left_iff.mp hparts
      obtain ⟨items, hitems, _⟩ := encode_list_ok hlist
      obtain ⟨_, _, hkey, _⟩ := List.forall₂_cons_left_iff.mp hitems
      cases hkey
  | depth + 3 => exact h

section Copies

variable {isText : PyStr → Prop} {isFloat : ℚ → PyStr → Prop}

/-- A copy of an object has its members, wherever they stand. -/
theorem member_of_copy {members : List (PyStr × PyVal)} {copy : PyVal}
    (hsame : SameValue (.dict (objectEntries members)) copy)
    (hcopy : JsonValue isText isFloat copy) :
    ∃ entries, copy = .dict entries ∧ ∀ member ∈ members, ∃ value,
      dictGet entries member.1 = some value ∧ SameValue member.2 value ∧
        JsonValue isText isFloat value := by
  cases hcopy with
  | dict hdistinct _ hmembers =>
      refine ⟨_, rfl, fun member hmember => ?_⟩
      obtain ⟨found, hfound, hname, hvalue⟩ := (sameValue_dict.mp hsame).2 member hmember
      exact ⟨found.2, (dictGet_eq_some_iff hdistinct).mpr (hname ▸ hfound), hvalue,
        hmembers found hfound⟩
  | _ => simp [SameValue] at hsame

theorem eq_str_of_same {s : PyStr} {copy : PyVal} (h : SameValue (.str s) copy) :
    copy = .str s := by
  cases copy with
  | str t => rw [SameValue] at h; rw [h]
  | _ => simp [SameValue] at h

/-- A copy of the published key is imported as the key, under its label. -/
theorem import_of_copy {lib : CryptoLib Token} (hcrypto : lib.hasCrypto = true)
    {pair : KeyPair} (hon : lib.onCurve pair.key.publicKey = true)
    (hx : pair.key.publicKey.x < 256 ^ 32) (hy : pair.key.publicKey.y < 256 ^ 32)
    {copy : PyVal} (hsame : SameValue (.dict (objectEntries (jwkMembers pair))) copy)
    (hcopy : JsonValue isText isFloat copy) :
    jwkToPublicPem lib copy = some (lib.publicPem pair.key.publicKey) ∧
      kidLabel copy = some pair.keyId := by
  obtain ⟨entries, rfl, hmembers⟩ := member_of_copy hsame hcopy
  have hget : ∀ name value, (name, .str value) ∈ jwkMembers pair →
      dictGet entries name = some (.str value) := by
    intro name value hmem
    obtain ⟨found, hfound, hsame, _⟩ := hmembers _ hmem
    rw [hfound, eq_str_of_same hsame]
  have hkty := hget (py "kty") (py "EC") (by simp [jwkMembers])
  have hcrv := hget (py "crv") (py "P-256") (by simp [jwkMembers])
  have hx' := hget (py "x") (coordinateText (bytesBE 32 pair.key.publicKey.x))
    (by simp [jwkMembers])
  have hy' := hget (py "y") (coordinateText (bytesBE 32 pair.key.publicKey.y))
    (by simp [jwkMembers])
  have hkid := hget (py "kid") pair.keyId (by simp [jwkMembers])
  constructor
  · simp only [jwkToPublicPem, hcrypto, hkty, hcrv, hx', hy', b64UrlUint_toBytes32 hx,
      b64UrlUint_toBytes32 hy, hon, and_self, if_true]
  · simp only [kidLabel, hkid]

/-- The keys of an entry that holds a copy of the key set. -/
theorem usableKeys_of_copy {lib : CryptoLib Token} (hcrypto : lib.hasCrypto = true)
    {pair : KeyPair} (hon : lib.onCurve pair.key.publicKey = true)
    (hx : pair.key.publicKey.x < 256 ^ 32) (hy : pair.key.publicKey.y < 256 ^ 32)
    {copy : PyVal} (hsame : SameValue (keySet pair) copy)
    (hcopy : JsonValue isText isFloat copy) (deploymentId : PyStr) :
    usableKeys lib (entryKeys (objectEntries
        [(py "deployment_id", .str deploymentId), (py "jwks", copy)])) =
      [⟨lib.publicPem pair.key.publicKey, some pair.keyId⟩] := by
  obtain ⟨entries, rfl, hmembers⟩ := member_of_copy hsame hcopy
  obtain ⟨keys, hkeys, hsame, hjson⟩ := hmembers _ List.mem_cons_self
  cases hjson with
  | list hitems =>
      rw [sameValue_list] at hsame
      obtain ⟨key, rest, hkey, hrest, rfl⟩ := List.forall₂_cons_left_iff.mp hsame
      cases hrest
      obtain ⟨hpem, hlabel⟩ := import_of_copy hcrypto hon hx hy hkey
        (hitems key List.mem_cons_self)
      have hentry : entryKeys (objectEntries
          [(py "deployment_id", .str deploymentId), (py "jwks", .dict entries)]) =
            [key] := by
        simp +decide only [entryKeys, objectEntries, List.map_cons, List.map_nil,
          dictGet_cons_str, if_true, if_false, hkeys]
      rw [hentry, usableKeys, List.filterMap_cons, hpem, hlabel]
      rfl
  | _ => simp [SameValue] at hsame

end Copies

theorem scansTo_memberLiteral {inner : Scanner PyVal} (ensureAscii : Bool)
    {name text : PyStr} {value : PyVal} (hname : isUnicode name = true)
    (hvalue : ScansTo inner text value) :
    ScansTo (scanMember inner) (memberLiteral ensureAscii name text) (name, value) :=
  @scansTo_member inner [0x20] (by decide) _ _ _ (unpaired_of_isUnicode hname) _ hvalue

theorem scansTo_objectLiteral {interp : Interpreter} {inner : Scanner PyVal}
    {parts : List PyStr} {members : List (PyStr × PyVal)}
    (hdistinct : (members.map Prod.fst).Nodup)
    (hparts : List.Forall₂ (ScansTo (scanMember inner)) parts members) :
    ScansTo (scanWith interp (some inner)) (objectLiteral parts)
      (.dict (objectEntries members)) :=
  @scansTo_dict interp inner [0x20] parts (by decide) members hdistinct hparts

/-- A key on the curve that is published has coordinates of 32 bytes. -/
theorem coordinates_of_published {pair : KeyPair} {jwk : PyVal}
    (h : publicKeyJwk pair = .ok jwk) :
    pair.key.publicKey.x < 256 ^ 32 ∧ pair.key.publicKey.y < 256 ^ 32 := by
  have hfits : ∀ n raw, toBytes32 n = .ok raw → n < 256 ^ 32 := by
    intro n raw hraw
    rw [toBytes32] at hraw
    split_ifs at hraw with hn
    exact hn
  obtain ⟨x, hx, h⟩ := bind_eq_ok.mp h
  obtain ⟨y, hy, _⟩ := bind_eq_ok.mp h
  exact ⟨hfits _ x hx, hfits _ y hy⟩

/-- What the endpoint answers with is the key set of the configured pair. -/
theorem keySet_of_jwksEndpoint {lib : CryptoLib Token} {env : Env}
    {service : A2ACryptoService R} {pair : KeyPair}
    (hpair : ensureKeyPair lib env service = .ok pair) {answer : PyVal}
    (h : jwksEndpoint lib env (.ok service) = .ok answer) :
    answer = keySet pair ∧ pair.key.publicKey.x < 256 ^ 32 ∧
      pair.key.publicKey.y < 256 ^ 32 := by
  have hjwk : (Except.ok service >>= getPublicKeyJwk lib env : Except PyExc PyVal) =
      publicKeyJwk pair := by
    rw [ok_bind, getPublicKeyJwk, hpair, ok_bind]
  rw [jwksEndpoint, hjwk] at h
  split at h
  next jwk hpublished =>
    have hfits := coordinates_of_published hpublished
    rw [publicKeyJwk_eq hfits.1 hfits.2] at hpublished
    cases hpublished
    exact ⟨(Except.ok.inj h).symm, hfits⟩
  next => split_ifs at h

/-- A gateway whose key set was fetched: its settings, the pair that it signs with and
the text of the response. -/
structure Peer (lib : CryptoLib Token) (R : Type) where
  env : Env
  service : A2ACryptoService R
  pair : KeyPair
  response : PyStr
  loaded : ensureKeyPair lib env service = .ok pair
  onCurve : lib.onCurve pair.key.publicKey = true
  answered : ∃ answer style itemPad keyPad depth, style.Separates itemPad keyPad ∧
    jwksEndpoint lib env (.ok service) = .ok answer ∧
      encode style depth answer = .ok response
  issuerUsable : isNonemptyStr (.str service.issuerId) = true
  deploymentUsable : isNonemptyStr (.str env.deploymentId) = true
  issuerUnicode : isUnicode service.issuerId = true
  deploymentUnicode : isUnicode env.deploymentId = true
  labelUnicode : isUnicode pair.keyId = true

namespace Peer

variable {lib : CryptoLib Token} (peer : Peer lib R)

def candidate : Candidate := localCandidate lib peer.env peer.service peer.pair

/-- The peer's entry in a configuration, around its response as it came. -/
def entryText (ensureAscii : Bool) : PyStr :=
  memberLiteral ensureAscii peer.service.issuerId (objectLiteral
    [memberLiteral ensureAscii (py "deployment_id")
        (quote ensureAscii peer.env.deploymentId),
      memberLiteral ensureAscii (py "jwks") peer.response])

theorem response_eq : ∃ style itemPad keyPad, style.Separates itemPad keyPad ∧
    encode style 3 (keySet peer.pair) = .ok peer.response ∧
      peer.pair.key.publicKey.x < 256 ^ 32 ∧ peer.pair.key.publicKey.y < 256 ^ 32 := by
  obtain ⟨answer, style, itemPad, keyPad, depth, hstyle, hanswer, hwritten⟩ := peer.answered
  obtain ⟨rfl, hfits⟩ := keySet_of_jwksEndpoint peer.loaded hanswer
  exact ⟨style, itemPad, keyPad, hstyle, encode_keySet hwritten, hfits⟩

theorem plainText_entryText (ensureAscii : Bool) :
    PlainText (peer.entryText ensureAscii) := by
  obtain ⟨style, itemPad, keyPad, hstyle, hwritten, _⟩ := peer.response_eq
  have hresponse := plainText_encode hstyle (keySet_json peer.labelUnicode) hwritten
  refine plainText_memberLiteral ensureAscii peer.issuerUnicode
    (plainText_objectLiteral fun member hmember => ?_)
  simp only [List.mem_cons, List.not_mem_nil, or_false] at hmember
  rcases hmember with rfl | rfl
  · exact plainText_memberLiteral ensureAscii (by decide)
      (plainText_quote ensureAscii peer.deploymentUnicode)
  · exact plainText_memberLiteral ensureAscii (by decide) hresponse

/-- The entry is read as a usable one, whose only key is the one that the peer verifies
its own tokens with. -/
theorem entryText_scansTo (interp : Interpreter) {limit : ℕ} (hlimit : 3 ≤ limit)
    (ensureAscii : Bool) :
    ∃ entry, ScansTo (scanMember (scanValue interp (limit + 1)))
        (peer.entryText ensureAscii) (peer.service.issuerId, entry) ∧
      ∃ issuer, normalizeIssuerEntry lib (.str peer.service.issuerId) entry =
          some issuer ∧
        issuerCandidates issuer = [peer.candidate] := by
  obtain ⟨style, itemPad, keyPad, hstyle, hwritten, hx, hy⟩ := peer.response_eq
  have hjson : JsonValue Unpaired (fun _ _ => False) (keySet peer.pair) :=
    (keySet_json peer.labelUnicode).mono (fun _ => unpaired_of_isUnicode) fun _ _ h => h
  have hread : ∀ (x : ℚ) (repr : PyStr), False → ReadsBack interp x repr :=
    fun _ _ h => h.elim
  obtain ⟨copy, hscan, hsame, hcopy⟩ :=
    encode_scansTo hread hstyle hjson hlimit hwritten
  have hdeployment : ScansTo (scanValue interp limit)
      (quote ensureAscii peer.env.deploymentId) (.str peer.env.deploymentId) := by
    obtain ⟨inner, rfl⟩ := Nat.exists_eq_add_of_le' hlimit
    exact scansTo_str (unpaired_of_isUnicode peer.deploymentUnicode) ensureAscii
  have hentry := @scansTo_objectLiteral interp _ _
    [(py "deployment_id", .str peer.env.deploymentId), (py "jwks", copy)]
    (show [py "deployment_id", py "jwks"].Nodup by decide)
    (.cons (scansTo_memberLiteral ensureAscii (by decide) hdeployment)
      (.cons (scansTo_memberLiteral ensureAscii (by decide) hscan) .nil))
  refine ⟨_, scansTo_memberLiteral ensureAscii peer.issuerUnicode hentry, ?_⟩
  have hkeys := usableKeys_of_copy (ensureKeyPair_hasCrypto peer.loaded) peer.onCurve hx hy
    hsame hcopy peer.env.deploymentId
  have hfound : dictGet (objectEntries
      [(py "deployment_id", .str peer.env.deploymentId), (py "jwks", copy)])
        (py "deployment_id") = some (.str peer.env.deploymentId) := rfl
  rw [normalizeIssuerEntry, hfound]
  simp only [hkeys]
  rw [dif_pos ⟨peer.issuerUsable, peer.deploymentUsable, List.cons_ne_nil _ _⟩]
  exact ⟨_, rfl, rfl⟩

end Peer

def configText (lib : CryptoLib Token) (ensureAscii : Bool) (peers : List (Peer lib R)) :
    PyStr :=
  objectLiteral (peers.map (Peer.entryText · ensureAscii))

/-- The text of a configuration is read as an object with an entry for each peer. -/
theorem configText_read {lib : CryptoLib Token} {interp : Interpreter}
    (hdepth : 5 ≤ interp.depth) (ensureAscii : Bool) {peers : List (Peer lib R)}
    (hdistinct : (peers.map fun peer => peer.service.issuerId).Nodup) :
    ∃ entry : Peer lib R → PyVal,
      loads interp (configText lib ensureAscii peers) =
          .ok (.dict (objectEntries
            (peers.map fun peer => (peer.service.issuerId, entry peer)))) ∧
        ∀ peer, ∃ issuer,
          normalizeIssuerEntry lib (.str peer.service.issuerId) (entry peer) =
              some issuer ∧
            issuerCandidates issuer = [peer.candidate] := by
  obtain ⟨limit, hlimit⟩ := Nat.exists_eq_add_of_le' hdepth
  choose entry hscans hissuer using fun peer : Peer lib R =>
    peer.entryText_scansTo interp (Nat.le_add_left 3 limit) ensureAscii
  refine ⟨entry, loads_of_scansTo ?_, hissuer⟩
  rw [hlimit]
  refine scansTo_objectLiteral ?_ ?_
  · rw [List.map_map]
    exact hdistinct
  · rw [List.forall₂_map_left_iff, List.forall₂_map_right_iff, List.forall₂_same]
    exact fun peer _ => hscans peer

/-- Entries that each hold the key of their peer give the keys of the peers. -/
theorem candidates_of_entries {lib : CryptoLib Token} {peers : List (Peer lib R)}
    (hdistinct : (peers.map fun peer => peer.service.issuerId).Nodup)
    {entry : Peer lib R → PyVal}
    (hentry : ∀ peer, ∃ issuer,
      normalizeIssuerEntry lib (.str peer.service.issuerId) (entry peer) = some issuer ∧
        issuerCandidates issuer = [peer.candidate]) :
    (collectIssuers lib (objectEntries
      (peers.map fun peer => (peer.service.issuerId, entry peer)))).flatMap
        issuerCandidates = peers.map Peer.candidate := by
  have hids : DistinctIssuerIds (objectEntries
      (peers.map fun peer => (peer.service.issuerId, entry peer))) := by
    rw [← List.filterMap_eq_map] at hdistinct
    rw [DistinctIssuerIds, objectEntries, List.map_map, List.filterMap_map]
    exact hdistinct
  rw [collectIssuers_eq_filterMap lib hids, objectEntries, List.map_map,
    List.filterMap_map]
  clear hids hdistinct
  induction peers with
  | nil => rfl
  | cons peer peers ih =>
      obtain ⟨issuer, hissuer, hcandidates⟩ := hentry peer
      rw [List.filterMap_cons, Function.comp_apply, Function.comp_apply, hissuer,
        List.flatMap_cons, hcandidates, ih]
      rfl

namespace Reference

def deepReader : Interpreter := { reader with depth := 100 }

def readingLib : CryptoLib SignedToken := { lib with jsonLoads := loads deepReader }

def response (x kid : PyStr) : PyStr :=
  py "\x7b\"keys\":[\x7b\"kty\":\"EC\",\"crv\":\"P-256\",\"x\":\"" ++ x ++
    py "\",\"y\":\"" ++ x ++ py "\",\"kid\":\"" ++ kid ++
    py "\",\"use\":\"sig\",\"alg\":\"ES256\"\x7d]\x7d"

def firstPeer : Peer readingLib JtiRegistry where
  env := env
  service := service
  pair := keyPair
  response := response (py "AAAAAAAAAAAAAAAAAAAAAAAAAAAAAAAAAAAAAAAAAAE") (py "did:a#key-k")
  loaded := by decide +kernel
  onCurve := by decide +kernel
  answered := ⟨keySet keyPair, compactStyle, [], [], 3, compactStyle_separates, rfl,
    by decide +kernel⟩
  issuerUsable := by decide +kernel
  deploymentUsable := by decide +kernel
  issuerUnicode := by decide +kernel
  deploymentUnicode := by decide +kernel
  labelUnicode := by decide +kernel

def otherKeyPair : KeyPair := ⟨py "did:b", py "did:b#key-kk", ⟨py "key two", ⟨2, 2⟩⟩⟩

def secondPeer : Peer readingLib JtiRegistry where
  env := { env with deploymentId := py "peer", deploymentIdSet := List.cons_ne_nil _ _ }
  service := otherService
  pair := otherKeyPair
  response := response (py "AAAAAAAAAAAAAAAAAAAAAAAAAAAAAAAAAAAAAAAAAAI") (py "did:b#key-kk")
  loaded := by decide +kernel
  onCurve := by decide +kernel
  answered := ⟨keySet otherKeyPair, compactStyle, [], [], 3, compactStyle_separates, rfl,
    by decide +kernel⟩
  issuerUsable := by decide +kernel
  deploymentUsable := by decide +kernel
  issuerUnicode := by decide +kernel
  deploymentUnicode := by decide +kernel
  labelUnicode := by decide +kernel

end Reference

end QwedA2A
