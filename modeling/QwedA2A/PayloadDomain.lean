/-
Which payloads the two serializations accept.  The size measurement and the hash
write the same values under different options; only the hash sorts the keys, and
keys of two kinds do not sort.
-/
import QwedA2A.Interceptor

namespace QwedA2A

namespace PyJson

/-- The integer prints within the interpreter's digit limit. -/
def Printable (n : ℤ) : Prop := (natText n.natAbs).length ≤ intMaxStrDigits

/-- A key that JSON can write. -/
def WritableKey : PyVal → Prop
  | .str _ | .float _ _ | .bool _ | .pyNone => True
  | .int n => Printable n
  | _ => False

/-- Values that nest within the depth, with printable integers and writable
keys. -/
def Writable : ℕ → PyVal → Prop
  | _, .int n => Printable n
  | 0, .list _ | 0, .dict _ | 0, .other _ => False
  | depth + 1, .list items => ∀ item ∈ items, Writable depth item
  | depth + 1, .dict entries =>
      ∀ entry ∈ entries, WritableKey entry.1 ∧ Writable depth entry.2
  | _, _ => True

/-- The value is the payload itself or nested in it. -/
inductive Occurs (value : PyVal) : PyVal → Prop
  | here : Occurs value value
  | item {items : List PyVal} {item : PyVal} :
      item ∈ items → Occurs value item → Occurs value (.list items)
  | member {entries : PyDict} {entry : PyVal × PyVal} :
      entry ∈ entries → Occurs value entry.2 → Occurs value (.dict entries)

def IsNumber : PyVal → Prop
  | .int _ | .bool _ | .float _ _ => True
  | _ => False

/-- Keys that sort: at most one of them, strings only, or numbers only. -/
def Comparable (keys : List PyVal) : Prop :=
  keys.length ≤ 1 ∨ (∀ key ∈ keys, ∃ text, key = .str text) ∨
    ∀ key ∈ keys, IsNumber key

/-- The keys of every object in the value sort. -/
def Sortable (value : PyVal) : Prop :=
  ∀ entries, Occurs (.dict entries) value → Comparable (entries.map Prod.fst)

theorem sortable_list {items : List PyVal} :
    Sortable (.list items) ↔ ∀ item ∈ items, Sortable item := by
  constructor
  · intro h item hitem entries hoccurs
    exact h entries (.item hitem hoccurs)
  · intro h entries hoccurs
    cases hoccurs with
    | item hitem hinner => exact h _ hitem entries hinner

theorem sortable_dict {entries : PyDict} :
    Sortable (.dict entries) ↔
      Comparable (entries.map Prod.fst) ∧ ∀ entry ∈ entries, Sortable entry.2 := by
  constructor
  · intro h
    refine ⟨h entries .here, fun entry hentry inner hoccurs => ?_⟩
    exact h inner (.member hentry hoccurs)
  · rintro ⟨hkeys, hvalues⟩ inner hoccurs
    cases hoccurs with
    | here => exact hkeys
    | member hentry hinner => exact hvalues _ hentry inner hinner

theorem sortable_of_scalar {value : PyVal} (hlist : ∀ items, value ≠ .list items)
    (hdict : ∀ entries, value ≠ .dict entries) : Sortable value := by
  intro entries hoccurs
  cases hoccurs with
  | here => exact absurd rfl (hdict entries)
  | item _ _ => exact absurd rfl (hlist _)
  | member _ _ => exact absurd rfl (hdict _)

theorem mapM_returns_iff {ε α β : Type} {f : α → Except ε β} {xs : List α} :
    (∃ ys, xs.mapM f = .ok ys) ↔ ∀ x ∈ xs, ∃ y, f x = .ok y := by
  simp only [mapM_ok_iff]
  induction xs with
  | nil => exact ⟨fun _ _ hx => absurd hx List.not_mem_nil, fun _ => ⟨[], .nil⟩⟩
  | cons x rest ih =>
      rw [List.forall_mem_cons, ← ih]
      constructor
      · rintro ⟨ys, h⟩
        cases h with
        | cons hx hrest => exact ⟨⟨_, hx⟩, _, hrest⟩
      · rintro ⟨⟨y, hx⟩, ys, hrest⟩
        exact ⟨y :: ys, .cons hx hrest⟩

theorem intRepr_returns_iff {n : ℤ} : (∃ text, intRepr n = .ok text) ↔ Printable n := by
  rw [intRepr, Printable]
  split_ifs with h <;> simp [h]

theorem keyText_returns_iff {key : PyVal} :
    (∃ text, keyText key = .ok text) ↔ WritableKey key := by
  cases key with
  | bool b => cases b <;> simp [keyText, WritableKey]
  | int n => exact intRepr_returns_iff
  | _ => simp [keyText, WritableKey]

theorem isStrKey_iff {key : PyVal} : isStrKey key = true ↔ ∃ text, key = .str text := by
  cases key <;> simp [isStrKey]

theorem keyNumber_isSome_iff {key : PyVal} :
    (keyNumber key).isSome = true ↔ IsNumber key := by
  cases key with
  | bool b => cases b <;> simp [keyNumber, IsNumber]
  | _ => simp [keyNumber, IsNumber]

theorem sortItems_returns_iff {α : Type} {items : List (PyVal × α)} :
    (∃ ordered, sortItems items = .ok ordered) ↔
      Comparable (items.map Prod.fst) := by
  have hcheck : (items.length ≤ 1 || items.all (fun item => isStrKey item.1) ||
      items.all fun item => (keyNumber item.1).isSome) = true ↔
      Comparable (items.map Prod.fst) := by
    simp only [Comparable, Bool.or_eq_true, decide_eq_true_eq, List.all_eq_true,
      List.length_map, List.forall_mem_map, isStrKey_iff, keyNumber_isSome_iff,
      or_assoc]
  rw [sortItems, ← hcheck]
  split_ifs with h <;> simp [h]

theorem sortItems_mem {α : Type} {items ordered : List (PyVal × α)}
    (h : sortItems items = .ok ordered) (item : PyVal × α) :
    item ∈ ordered ↔ item ∈ items := by
  rw [sortItems] at h
  split_ifs at h
  cases h
  exact List.mem_insertionSort _

theorem bind_returns_iff {ε α β : Type} {x : Except ε α} {f : α → Except ε β} :
    (∃ b, (x >>= f) = .ok b) ↔ ∃ a, x = .ok a ∧ ∃ b, f a = .ok b := by
  cases x with
  | error e => simp
  | ok a => simp

theorem memberText_returns_iff {style : Style}
    {member : PyVal × Except PyExc PyStr} :
    (∃ text, (do
        let key ← keyText member.1
        let text ← member.2
        pure (quote style.ensureAscii key ++ style.keySeparator ++ text) :
          Except PyExc PyStr) = .ok text) ↔
      WritableKey member.1 ∧ ∃ text, member.2 = .ok text := by
  rw [bind_returns_iff, ← keyText_returns_iff]
  constructor
  · rintro ⟨key, hkey, h⟩
    obtain ⟨text, htext, _⟩ := bind_returns_iff.mp h
    exact ⟨⟨key, hkey⟩, text, htext⟩
  · rintro ⟨⟨key, hkey⟩, text, htext⟩
    exact ⟨key, hkey, bind_returns_iff.mpr ⟨text, htext, _, rfl⟩⟩

/-- The members of an object, written in the order they stand in. -/
theorem membersText_returns_iff {style : Style}
    {ordered : List (PyVal × Except PyExc PyStr)} :
    (∃ text, (do
        let parts ← ordered.mapM fun member => do
          let key ← keyText member.1
          let text ← member.2
          pure (quote style.ensureAscii key ++ style.keySeparator ++ text)
        pure (py "\x7b" ++ joinWith style.itemSeparator parts ++ py "\x7d") :
          Except PyExc PyStr) = .ok text) ↔
      ∀ member ∈ ordered, WritableKey member.1 ∧ ∃ text, member.2 = .ok text := by
  rw [bind_returns_iff]
  constructor
  · rintro ⟨parts, hparts, _⟩ member hmember
    exact memberText_returns_iff.mp (mapM_returns_iff.mp ⟨parts, hparts⟩ member hmember)
  · intro h
    obtain ⟨parts, hparts⟩ := mapM_returns_iff.mpr fun member hmember =>
      (@memberText_returns_iff style member).mpr (h member hmember)
    exact ⟨parts, hparts, _, rfl⟩

/-- An object is written when its keys sort, if they have to, and each member is
written. -/
theorem objectText_returns_iff {style : Style}
    {members : List (PyVal × Except PyExc PyStr)} :
    (∃ text, objectText style members = .ok text) ↔
      (style.sortKeys = true → Comparable (members.map Prod.fst)) ∧
        ∀ member ∈ members, WritableKey member.1 ∧ ∃ text, member.2 = .ok text := by
  rw [objectText]
  split_ifs with hsort
  · rw [bind_returns_iff, ← sortItems_returns_iff]
    simp only [hsort, forall_const, membersText_returns_iff]
    constructor
    · rintro ⟨ordered, hordered, h⟩
      exact ⟨⟨ordered, hordered⟩, fun member hmember =>
        h member ((sortItems_mem hordered member).mpr hmember)⟩
    · rintro ⟨⟨ordered, hordered⟩, h⟩
      exact ⟨ordered, hordered, fun member hmember =>
        h member ((sortItems_mem hordered member).mp hmember)⟩
  · rw [ok_bind, membersText_returns_iff]
    simp [hsort]

/-- The encoder writes the writable values, and when it sorts keys only those whose
keys sort. -/
theorem encode_returns_iff (style : Style) (depth : ℕ) (value : PyVal) :
    (∃ text, encode style depth value = .ok text) ↔
      Writable depth value ∧ (style.sortKeys = true → Sortable value) := by
  induction depth generalizing value with
  | zero =>
      cases value with
      | bool b => cases b <;> simp [encode, Writable, sortable_of_scalar]
      | int n =>
          rw [encode, intRepr_returns_iff, Writable]
          simp [sortable_of_scalar]
      | _ => simp [encode, Writable, sortable_of_scalar]
  | succ depth ih =>
      cases value with
      | bool b => cases b <;> simp [encode, Writable, sortable_of_scalar]
      | int n =>
          rw [encode, intRepr_returns_iff, Writable]
          simp [sortable_of_scalar]
      | list items =>
          rw [encode, bind_returns_iff, encodeItems_eq_map, sortable_list, Writable]
          have hitems : (∃ parts, (items.map (encode style depth)).mapM id =
              .ok parts) ↔ ∀ item ∈ items, Writable depth item ∧
                (style.sortKeys = true → Sortable item) := by
            simp only [mapM_returns_iff, List.forall_mem_map, id, ih]
          constructor
          · rintro ⟨parts, hparts, _⟩
            have h := hitems.mp ⟨parts, hparts⟩
            exact ⟨fun item hitem => (h item hitem).1,
              fun hsort item hitem => (h item hitem).2 hsort⟩
          · rintro ⟨hwritable, hsortable⟩
            obtain ⟨parts, hparts⟩ := hitems.mpr fun item hitem =>
              ⟨hwritable item hitem, fun hsort => hsortable hsort item hitem⟩
            exact ⟨parts, hparts, _, rfl⟩
      | dict entries =>
          rw [encode, objectText_returns_iff, encodeEntries_eq_map, sortable_dict,
            Writable]
          simp only [List.map_map, Function.comp_def, List.forall_mem_map, ih]
          constructor
          · rintro ⟨hkeys, h⟩
            exact ⟨fun entry hentry => ⟨(h entry hentry).1, (h entry hentry).2.1⟩,
              fun hsort => ⟨hkeys hsort,
                fun entry hentry => (h entry hentry).2.2 hsort⟩⟩
          · rintro ⟨hwritable, hsortable⟩
            exact ⟨fun hsort => (hsortable hsort).1, fun entry hentry =>
              ⟨(hwritable entry hentry).1, (hwritable entry hentry).2,
                fun hsort => (hsortable hsort).2 entry hentry⟩⟩
      | _ => simp [encode, Writable, sortable_of_scalar]

/-- The encoder raises nothing else. -/
def EncodeExc (exc : PyExc) : Prop :=
  exc.type = .typeError ∨ exc.type = .valueError ∨ exc.type = .recursionError

theorem intRepr_raises (n : ℤ) : RaisesOnly EncodeExc (intRepr n) := by
  rw [intRepr]
  split
  · exact .ok _
  · exact .error (Or.inr (Or.inl rfl))

theorem keyText_raises (key : PyVal) : RaisesOnly EncodeExc (keyText key) := by
  cases key with
  | bool b => cases b <;> exact .ok _
  | int n => exact intRepr_raises n
  | str _ => exact .ok _
  | float _ _ => exact .ok _
  | pyNone => exact .ok _
  | _ => exact .error (Or.inl rfl)

theorem sortItems_raises {α : Type} (items : List (PyVal × α)) :
    RaisesOnly EncodeExc (sortItems items) := by
  rw [sortItems]
  split
  · exact .ok _
  · exact .error (Or.inl rfl)

/-- The members of an object raise what a key or a member does. -/
theorem membersText_raises {style : Style}
    {ordered : List (PyVal × Except PyExc PyStr)}
    (hmembers : ∀ member ∈ ordered, RaisesOnly EncodeExc member.2) :
    RaisesOnly EncodeExc (do
      let parts ← ordered.mapM fun member => do
        let key ← keyText member.1
        let text ← member.2
        pure (quote style.ensureAscii key ++ style.keySeparator ++ text)
      pure (py "\x7b" ++ joinWith style.itemSeparator parts ++ py "\x7d") :
        Except PyExc PyStr) := by
  apply RaisesOnly.bind
  · apply RaisesOnly.mapM
    intro member hmember
    apply (keyText_raises member.1).bind
    intro key _
    exact (hmembers member hmember).bind fun _ _ => .ok _
  · exact fun _ _ => .ok _

theorem encode_raises (style : Style) (depth : ℕ) (value : PyVal) :
    RaisesOnly EncodeExc (encode style depth value) := by
  induction depth generalizing value with
  | zero =>
      cases value with
      | bool b => cases b <;> exact .ok _
      | int n => exact intRepr_raises n
      | list _ => exact .error (Or.inr (Or.inr rfl))
      | dict _ => exact .error (Or.inr (Or.inr rfl))
      | other _ => exact .error (Or.inr (Or.inr rfl))
      | _ => exact .ok _
  | succ depth ih =>
      cases value with
      | bool b => cases b <;> exact .ok _
      | int n => exact intRepr_raises n
      | list items =>
          rw [encode, encodeItems_eq_map]
          refine RaisesOnly.bind (RaisesOnly.mapM ?_) fun _ _ => .ok _
          intro rendered hrendered
          obtain ⟨item, _, rfl⟩ := List.mem_map.mp hrendered
          exact ih item
      | dict entries =>
          have hmembers : ∀ member ∈ encodeEntries style depth entries,
              RaisesOnly EncodeExc member.2 := by
            intro member hmember
            rw [encodeEntries_eq_map] at hmember
            obtain ⟨entry, _, rfl⟩ := List.mem_map.mp hmember
            exact ih entry.2
          rw [encode, objectText]
          split
          · apply (sortItems_raises _).bind
            intro ordered hordered
            exact membersText_raises fun member hmember =>
              hmembers member ((sortItems_mem hordered member).mp hmember)
          · exact membersText_raises hmembers
      | _ => exact .ok _

end PyJson

namespace Interceptor

variable {Token Tree : Type} {interceptor : Interceptor Token Tree}
  {message : AgentMessage}

theorem payloadSize_returns_iff :
    (∃ size, interceptor.payloadSize message.payload = .ok size) ↔
      PyJson.Writable interceptor.lib.sizeDepth (.dict message.payload) := by
  rw [payloadSize, PyJson.bind_returns_iff]
  have hencode := PyJson.encode_returns_iff PyJson.compactStyle
    interceptor.lib.sizeDepth (.dict message.payload)
  simp only [PyJson.compactStyle, Bool.false_eq_true, false_implies, and_true] at hencode
  rw [← hencode]
  exact ⟨fun ⟨text, htext, _⟩ => ⟨text, htext⟩, fun ⟨text, htext⟩ => ⟨text, htext, _, rfl⟩⟩

theorem payloadSize_error {exc : PyExc}
    (h : interceptor.payloadSize message.payload = .error exc) :
    unmeasurable exc = true := by
  rcases bind_eq_error.mp h with hencode | ⟨_, _, h⟩
  · exact decide_eq_true (PyJson.encode_raises _ _ _ exc hencode)
  · cases h

end Interceptor

theorem payloadHash_returns_iff {Token : Type} {lib : CryptoLib Token}
    {payload : PyVal} :
    (∃ hash, payloadHash lib payload = .ok hash) ↔
      PyJson.Writable lib.jsonDepth payload ∧ PyJson.Sortable payload := by
  rw [payloadHash, PyJson.bind_returns_iff]
  have hencode := PyJson.encode_returns_iff PyJson.canonicalStyle lib.jsonDepth payload
  simp only [PyJson.canonicalStyle, forall_const] at hencode
  rw [← hencode]
  exact ⟨fun ⟨text, htext, _⟩ => ⟨text, htext⟩, fun ⟨text, htext⟩ => ⟨text, htext, _, rfl⟩⟩

namespace Interceptor

variable {Token Tree : Type}

/-- The signer signs every verdict on the message under the trace ID. -/
def WorkingSigner (interceptor : Interceptor Token Tree) (message : AgentMessage)
    (traceId : PyStr) : Prop :=
  ∀ draft hash, ∃ token,
    interceptor.signVerdict (signRequest message traceId draft hash) = .ok token ∧
      interceptor.isEmptyToken token = false

/-- What is promised of a message: what is measured is hashed, every interception
answers, and what cannot be hashed is answered UNVERIFIABLE. -/
structure AlwaysAnswers (interceptor : Interceptor Token Tree)
    (message : AgentMessage) (traceId : PyStr) : Prop where
  hashed : ∀ size, interceptor.payloadSize message.payload = .ok size →
    ∃ hash, payloadHash interceptor.lib (.dict message.payload) = .ok hash
  answered : ∀ tb clock pool, ∃ verdict,
    (interceptor.intercept tb message traceId clock pool).1 = .ok verdict
  unhashed : ∀ exc,
    payloadHash interceptor.lib (.dict message.payload) = .error exc →
      ∀ tb clock pool verdict,
        (interceptor.intercept tb message traceId clock pool).1 = .ok verdict →
          verdict.status = .unverifiable

variable {interceptor : Interceptor Token Tree} {message : AgentMessage}
  {traceId : PyStr}

/-- A verdict is always drafted; on a payload that is not measured it is
UNVERIFIABLE. -/
theorem draft_returns (interceptor : Interceptor Token Tree)
    (message : AgentMessage) (tb : TrustBoundary) (clock : TrustBoundary.Clock)
    (pool : PoolOutcome) :
    ∃ draft, (interceptor.draft tb message clock pool).1 = .ok draft ∧
      ((¬ ∃ size, interceptor.payloadSize message.payload = .ok size) →
        draft.status = .unverifiable) := by
  rw [Interceptor.draft]
  split
  next exc hexc =>
    rw [if_pos (payloadSize_error hexc)]
    exact ⟨_, rfl, fun _ => rfl⟩
  next size hsize =>
    have hmeasured : ∃ size, interceptor.payloadSize message.payload = .ok size :=
      ⟨size, hsize⟩
    split_ifs with hlarge
    · exact ⟨_, rfl, fun h => absurd hmeasured h⟩
    · split
      next => exact ⟨_, rfl, fun h => absurd hmeasured h⟩
      next => exact ⟨_, rfl, fun h => absurd hmeasured h⟩

theorem attest_returns_iff (hsigner : interceptor.WorkingSigner message traceId)
    (draft : Draft) :
    (∃ token, interceptor.attest message traceId draft = .ok token ∧
        interceptor.isEmptyToken token = false) ↔
      ∃ hash, payloadHash interceptor.lib (.dict message.payload) = .ok hash := by
  rw [attest]
  constructor
  · rintro ⟨token, htoken, _⟩
    obtain ⟨hash, hhash, _⟩ := bind_eq_ok.mp htoken
    exact ⟨hash, hhash⟩
  · rintro ⟨hash, hhash⟩
    obtain ⟨token, htoken, hnonempty⟩ := hsigner draft hash
    exact ⟨token, bind_eq_ok.mpr ⟨hash, hhash, htoken⟩, hnonempty⟩

/-- With a working signer a draft becomes a verdict when it needs no signature or
the payload hashes; otherwise the call raises RuntimeError. -/
theorem buildVerdict_returns_iff (hsigner : interceptor.WorkingSigner message traceId)
    {draft : Draft} :
    (∃ verdict, interceptor.buildVerdict message traceId draft = .ok verdict) ↔
      draft.status = .unverifiable ∨
        ∃ hash, payloadHash interceptor.lib (.dict message.payload) = .ok hash := by
  rw [← attest_returns_iff hsigner draft, buildVerdict]
  by_cases hunverifiable : draft.status = .unverifiable
  · simp [hunverifiable]
  · rw [if_neg hunverifiable, or_iff_right hunverifiable]
    cases hattest : interceptor.attest message traceId draft with
    | error exc => simp
    | ok token => cases hempty : interceptor.isEmptyToken token <;> simp [hempty]

theorem intercept_of_draft {tb : TrustBoundary} {clock : TrustBoundary.Clock}
    {pool : PoolOutcome} {draft : Draft}
    (hdraft : (interceptor.draft tb message clock pool).1 = .ok draft) :
    (interceptor.intercept tb message traceId clock pool).1 =
      interceptor.buildVerdict message traceId draft := by
  rw [intercept]
  split
  next exc after h => rw [h] at hdraft; cases hdraft
  next found after h => rw [h] at hdraft; cases hdraft; rfl

/-- A boundary that blocks the sender blocks a measured message. -/
theorem draft_blocked {size : ℕ}
    (hsize : interceptor.payloadSize message.payload = .ok size)
    (clock : TrustBoundary.Clock) (pool : PoolOutcome) :
    ∃ draft, (interceptor.draft { blockedAgents := {message.senderAgentId} } message
      clock pool).1 = .ok draft ∧ draft.status = .blocked := by
  rw [Interceptor.draft, hsize]
  dsimp only
  split_ifs with hlarge
  · exact ⟨_, rfl, rfl⟩
  · have hrefused : ({ blockedAgents := {message.senderAgentId} } :
        TrustBoundary).checkStages message.senderAgentId message.receiverAgentId
        (some message.payloadType.value) clock.now = some _ :=
      if_pos (Finset.mem_singleton_self _)
    rw [TrustBoundary.evaluate_of_refused hrefused]
    exact ⟨_, rfl, rfl⟩

/-- Every interception answers exactly when what is measured also hashes. -/
theorem answered_iff (hsigner : interceptor.WorkingSigner message traceId) :
    (∀ tb clock pool, ∃ verdict,
        (interceptor.intercept tb message traceId clock pool).1 = .ok verdict) ↔
      ((∃ size, interceptor.payloadSize message.payload = .ok size) →
        ∃ hash, payloadHash interceptor.lib (.dict message.payload) = .ok hash) := by
  constructor
  · rintro h ⟨size, hsize⟩
    obtain ⟨draft, hdraft, hstatus⟩ := draft_blocked hsize ⟨0, 0, 0⟩ .noSlot
    have hverdict := h { blockedAgents := {message.senderAgentId} } ⟨0, 0, 0⟩ .noSlot
    rw [intercept_of_draft hdraft, buildVerdict_returns_iff hsigner, hstatus] at hverdict
    exact hverdict.resolve_left VerdictStatus.noConfusion
  · intro h tb clock pool
    obtain ⟨draft, hdraft, hunmeasured⟩ :=
      draft_returns interceptor message tb clock pool
    rw [intercept_of_draft hdraft, buildVerdict_returns_iff hsigner]
    by_cases hmeasured : ∃ size, interceptor.payloadSize message.payload = .ok size
    · exact Or.inr (h hmeasured)
    · exact Or.inl (hunmeasured hmeasured)

end Interceptor

namespace Reference

/-- The reference service signs any verdict under a trace ID it has not used. -/
theorem workingSigner (message : AgentMessage) :
    interceptor.WorkingSigner message (py "t") := by
  intro draft hash
  have hpair : ensureKeyPair lib env service = .ok keyPair := by decide +kernel
  have hfresh : (reserveTrace service.issuedRegistry (py "t")
      (truncate 0 + service.validitySeconds) 0).1 = true := by decide +kernel
  show ∃ token, (QwedA2A.signVerdict lib env service
    (Interceptor.signRequest message (py "t") draft hash) 0 0).1 = .ok token ∧ _
  rw [QwedA2A.signVerdict, Interceptor.signRequest, VerdictStatus.ofValue_value]
  dsimp only
  rw [hpair]
  dsimp only
  split
  next hused => rw [hused] at hfresh; cases hfresh
  next => exact ⟨_, rfl, rfl⟩

/-- A well-formed assertion beside an object whose keys are text and a number. -/
def mixedMessage : AgentMessage where
  senderAgentId := py "a"
  receiverAgentId := py "b"
  payloadType := .logicAssertion
  payload :=
    [(.str (py "assertions"),
        .list [.dict [(.str (py "claim"), .str (py "paid"))]]),
      (.str (py "note"), .dict [(.str (py "a"), .int 1), (.int 2, .int 3)])]

end Reference

/-- The two serializations agree on a message, and with a working signer every
interception of it answers, exactly when its payload cannot be measured or it nests
no deeper than the hash follows and the keys of every object in it sort. -/
theorem always_answers_iff_sortable {Token Tree : Type}
    (interceptor : Interceptor Token Tree) (message : AgentMessage)
    (traceId : PyStr) (hsigner : interceptor.WorkingSigner message traceId) :
    (interceptor.AlwaysAnswers message traceId ↔
      (PyJson.Writable interceptor.lib.sizeDepth (.dict message.payload) →
        PyJson.Writable interceptor.lib.jsonDepth (.dict message.payload) ∧
          PyJson.Sortable (.dict message.payload))) ∧
      ((∀ tb clock pool, ∃ verdict,
          (interceptor.intercept tb message traceId clock pool).1 = .ok verdict) ↔
        (PyJson.Writable interceptor.lib.sizeDepth (.dict message.payload) →
          PyJson.Writable interceptor.lib.jsonDepth (.dict message.payload) ∧
            PyJson.Sortable (.dict message.payload))) := by
  have hagree : ((∃ size, interceptor.payloadSize message.payload = .ok size) →
      ∃ hash, payloadHash interceptor.lib (.dict message.payload) = .ok hash) ↔
      (PyJson.Writable interceptor.lib.sizeDepth (.dict message.payload) →
        PyJson.Writable interceptor.lib.jsonDepth (.dict message.payload) ∧
          PyJson.Sortable (.dict message.payload)) := by
    rw [Interceptor.payloadSize_returns_iff, payloadHash_returns_iff]
  have hanswered := (Interceptor.answered_iff hsigner).trans hagree
  refine ⟨⟨fun h => hanswered.mp h.answered, fun h => ⟨?_, hanswered.mpr h, ?_⟩⟩,
    hanswered⟩
  · exact fun size hsize => hagree.mpr h ⟨size, hsize⟩
  · intro exc hexc tb clock pool verdict hverdict
    have hunmeasured : ¬ ∃ size, interceptor.payloadSize message.payload = .ok size := by
      intro hmeasured
      obtain ⟨hash, hhash⟩ := hagree.mpr h hmeasured
      rw [hexc] at hhash
      cases hhash
    obtain ⟨draft, hdraft, hstatus⟩ := Interceptor.draft_returns interceptor
      message tb clock pool
    rw [Interceptor.intercept_of_draft hdraft] at hverdict
    exact (Interceptor.buildVerdict_ok hverdict).1.trans (hstatus hunmeasured)

/-- The invoice is measured, hashed and answered. -/
theorem always_answers_iff_sortable_invoice :
    Reference.interceptor.AlwaysAnswers Reference.invoiceMessage (py "t") :=
  (always_answers_iff_sortable Reference.interceptor Reference.invoiceMessage
    (py "t") (Reference.workingSigner _)).1.mpr fun _ => by
      have hhash : (payloadHash Reference.lib
          (.dict Reference.invoiceMessage.payload)).toOption.isSome = true := by
        decide +kernel
      cases hfound : payloadHash Reference.lib
          (.dict Reference.invoiceMessage.payload) with
      | error exc => rw [hfound] at hhash; cases hhash
      | ok hash => exact payloadHash_returns_iff.mp ⟨hash, hfound⟩

/-- Mixed keys are measured and not hashed, and the call that should have answered
raises although the signer works. -/
theorem mixed_keys_escape_the_verdict :
    (∃ size, Reference.interceptor.payloadSize Reference.mixedMessage.payload =
        .ok size) ∧
      (∃ exc, payloadHash Reference.lib (.dict Reference.mixedMessage.payload) =
        .error exc ∧ exc.type = .typeError) ∧
      Reference.interceptor.WorkingSigner Reference.mixedMessage (py "t") ∧
      ∃ exc, (Reference.interceptor.intercept { defaultAllow := true }
        Reference.mixedMessage (py "t") ⟨0, 0, 0⟩ .finishes).1 = .error exc ∧
          exc.type = .runtimeError := by
  have hraised : (Reference.interceptor.intercept { defaultAllow := true }
      Reference.mixedMessage (py "t") ⟨0, 0, 0⟩ .finishes).1.map (fun _ => ()) =
      .error ⟨.runtimeError, py "Failed to sign attestation; refusing to return an unsigned verdict"⟩ := by
    decide +kernel
  refine ⟨⟨54, by decide +kernel⟩,
    ⟨⟨.typeError, py "'<' not supported between instances"⟩, by decide +kernel,
      rfl⟩, Reference.workingSigner _, ?_⟩
  cases hverdict : (Reference.interceptor.intercept { defaultAllow := true }
      Reference.mixedMessage (py "t") ⟨0, 0, 0⟩ .finishes).1 with
  | error exc =>
      rw [hverdict] at hraised
      cases hraised
      exact ⟨_, rfl, rfl⟩
  | ok verdict =>
      rw [hverdict] at hraised
      cases hraised

end QwedA2A
