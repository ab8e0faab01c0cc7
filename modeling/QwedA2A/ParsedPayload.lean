/-
Payloads that arrive as JSON.  Whatever the text, its payload has a size, a hash
and a verdict; and of texts without surrogates, payloads hash alike only when they
are the same up to the order of members.
-/
import QwedA2A.ParsedJson
import QwedA2A.PayloadBinding

namespace QwedA2A

namespace PyJson

variable {interp : Interpreter} {isText : PyStr → Prop} {isFloat : ℚ → PyStr → Prop}
  {depth : ℕ} {value inner : PyVal}

theorem Parsed.of_occurs (h : Parsed interp isText depth value)
    (hinner : Occurs inner value) : ∃ below ≤ depth, Parsed interp isText below inner := by
  induction hinner generalizing depth with
  | here => exact ⟨depth, le_rfl, h⟩
  | item hitem _ ih =>
      cases h with
      | list hitems =>
          obtain ⟨below, hbelow, hparsed⟩ := ih (hitems _ hitem)
          exact ⟨below, Nat.le_succ_of_le hbelow, hparsed⟩
  | member hentry _ ih =>
      cases h with
      | dict _ _ hmembers =>
          obtain ⟨member, hmember, rfl⟩ := List.mem_map.mp hentry
          obtain ⟨below, hbelow, hparsed⟩ := ih (hmembers member hmember)
          exact ⟨below, Nat.le_succ_of_le hbelow, hparsed⟩

/-- A parsed value is written by any encoder that nests as deep. -/
theorem Parsed.writable (h : Parsed interp isText depth value) {limit : ℕ}
    (hlimit : depth ≤ limit) : Writable limit value := by
  induction h generalizing limit with
  | int hprintable =>
      cases limit <;> exact hprintable
  | list _ ih =>
      obtain ⟨limit, rfl⟩ := Nat.exists_eq_succ_of_ne_zero
        (Nat.ne_of_gt (Nat.lt_of_lt_of_le (Nat.succ_pos _) hlimit))
      exact fun item hitem => ih item hitem (Nat.le_of_succ_le_succ hlimit)
  | dict _ _ _ ih =>
      obtain ⟨limit, rfl⟩ := Nat.exists_eq_succ_of_ne_zero
        (Nat.ne_of_gt (Nat.lt_of_lt_of_le (Nat.succ_pos _) hlimit))
      intro entry hentry
      obtain ⟨member, hmember, rfl⟩ := List.mem_map.mp hentry
      exact ⟨trivial, ih member hmember (Nat.le_of_succ_le_succ hlimit)⟩
  | _ => cases limit <;> trivial

theorem Parsed.sortable (h : Parsed interp isText depth value) : Sortable value := by
  induction h with
  | list _ ih => exact sortable_list.mpr ih
  | dict _ _ _ ih =>
      refine sortable_dict.mpr ⟨Or.inr (Or.inl fun key hkey => ?_), fun entry hentry => ?_⟩
      · obtain ⟨entry, hentry, rfl⟩ := List.mem_map.mp hkey
        obtain ⟨member, _, rfl⟩ := List.mem_map.mp hentry
        exact ⟨member.1, rfl⟩
      · obtain ⟨member, hmember, rfl⟩ := List.mem_map.mp hentry
        exact ih member hmember
  | _ => exact sortable_of_scalar (fun _ h => by cases h) fun _ h => by cases h

theorem JsonValue.of_occurs {number : PyNum} {repr : PyStr}
    (h : JsonValue isText isFloat value)
    (hoccurs : Occurs (.float number repr) value) :
    ∃ x, number = .rat x ∧ isFloat x repr := by
  induction h with
  | float hfloat =>
      cases hoccurs
      exact ⟨_, rfl, hfloat⟩
  | list _ ih =>
      cases hoccurs with
      | item hitem hinner => exact ih _ hitem hinner
  | dict _ _ _ ih =>
      cases hoccurs with
      | member hentry hinner =>
          obtain ⟨member, hmember, rfl⟩ := List.mem_map.mp hentry
          exact ih member hmember hinner
  | _ => cases hoccurs

/-- Without NaN and the infinities it is a JSON value. -/
theorem Parsed.jsonValue (h : Parsed interp isText depth value)
    (hfloats : ∀ number repr, Occurs (.float number repr) value →
      ∃ x, number = .rat x ∧ isFloat x repr) :
    JsonValue isText isFloat value := by
  induction h with
  | pyNone => exact .pyNone
  | bool b => exact .bool b
  | int _ => exact .int _
  | float _ _ =>
      obtain ⟨x, rfl, hfloat⟩ := hfloats _ _ .here
      exact .float hfloat
  | str htext => exact .str htext
  | list _ ih =>
      exact .list fun item hitem => ih item hitem fun number repr hoccurs =>
        hfloats number repr (.item hitem hoccurs)
  | dict hdistinct hnames _ ih =>
      refine .dict hdistinct hnames fun member hmember => ?_
      exact ih member hmember fun number repr hoccurs =>
        hfloats number repr (.member (List.mem_map_of_mem hmember) hoccurs)

end PyJson

open PyJson

variable {Token Tree : Type}

/-- A payload in a body that was read as JSON is always answered, if the signer
works, exactly when the hash follows it wherever the measurement does; and where
both nest as deep as the reader, it is measured, hashed and answered. -/
theorem parsed_payload_answered (interp : Interpreter)
    (interceptor : Interceptor Token Tree) (message : AgentMessage)
    (traceId text : PyStr) (body : PyVal) (hread : loads interp text = .ok body)
    (hpayload : Occurs (.dict message.payload) body)
    (hsigner : interceptor.WorkingSigner message traceId) :
    ((∀ tb clock pool, ∃ verdict,
        (interceptor.intercept tb message traceId clock pool).1 = .ok verdict) ↔
      (Writable interceptor.lib.sizeDepth (.dict message.payload) →
        Writable interceptor.lib.jsonDepth (.dict message.payload))) ∧
    (interp.depth ≤ interceptor.lib.sizeDepth →
      interp.depth ≤ interceptor.lib.jsonDepth →
        (∃ size, interceptor.payloadSize message.payload = .ok size) ∧
        (∃ hash, payloadHash interceptor.lib (.dict message.payload) = .ok hash) ∧
        ∀ tb clock pool, ∃ verdict,
          (interceptor.intercept tb message traceId clock pool).1 = .ok verdict) := by
  obtain ⟨depth, hdepth, hparsed⟩ := (loads_parsed hread).of_occurs hpayload
  have hanswered : (∀ tb clock pool, ∃ verdict,
        (interceptor.intercept tb message traceId clock pool).1 = .ok verdict) ↔
      (Writable interceptor.lib.sizeDepth (.dict message.payload) →
        Writable interceptor.lib.jsonDepth (.dict message.payload)) := by
    rw [Interceptor.answered_iff hsigner, Interceptor.payloadSize_returns_iff,
      payloadHash_returns_iff]
    exact ⟨fun h hsize => (h hsize).1, fun h hsize => ⟨h hsize, hparsed.sortable⟩⟩
  refine ⟨hanswered, fun hsize hhash => ?_⟩
  have hwritable := hparsed.writable (hdepth.trans hhash)
  exact ⟨Interceptor.payloadSize_returns_iff.mpr
      (hparsed.writable (hdepth.trans hsize)),
    payloadHash_returns_iff.mpr ⟨hwritable, hparsed.sortable⟩,
    hanswered.mpr fun _ => hwritable⟩

namespace Reference

def reader : Interpreter where
  floatRepr _ := py "1.5"
  depth := 4

def bodyText : PyStr := py "\x7b\"payload\": \x7b\"amount\": 1.5, \"items\": [1, true]\x7d\x7d"

def body : PyVal :=
  .dict (objectEntries [(py "payload", .dict (objectEntries (order false)))])

theorem loads_bodyText : loads reader bodyText = .ok body := by
  decide +kernel

def orderMessage : AgentMessage :=
  { invoiceMessage with
    payload := objectEntries (order false)
    stringKeys := fun entry hentry => by
      obtain ⟨member, _, rfl⟩ := List.mem_map.mp hentry
      exact ⟨member.1, rfl⟩ }

end Reference

/-- The order is answered. -/
theorem parsed_payload_answered_order :
    ∃ verdict, (Reference.interceptor.intercept { defaultAllow := true }
      Reference.orderMessage (py "t") ⟨0, 0, 0⟩ .finishes).1 = .ok verdict :=
  (parsed_payload_answered Reference.reader Reference.interceptor
    Reference.orderMessage (py "t") Reference.bodyText Reference.body
    Reference.loads_bodyText (.member List.mem_cons_self .here)
    (Reference.workingSigner _)).2 (by decide) (by decide) |>.2.2
      { defaultAllow := true } ⟨0, 0, 0⟩ .finishes

/-- Payloads that were read from texts without surrogates hash alike exactly when
they are the same up to the order of members. -/
theorem parsed_payload_hash_iff {isFloat : ℚ → PyStr → Prop} (interp : Interpreter)
    (lib : CryptoLib Token) (hrepr : FloatRepr isFloat) (hfree : lib.CollisionFree)
    (text text' : PyStr) (body body' left right : PyVal)
    (hunicode : isUnicode text = true) (hunicode' : isUnicode text' = true)
    (hread : loads interp text = .ok body) (hread' : loads interp text' = .ok body')
    (hleft : Occurs left body) (hright : Occurs right body')
    (hfloats : ∀ number repr, Occurs (.float number repr) left ∨
      Occurs (.float number repr) right → ∃ x, number = .rat x ∧ isFloat x repr)
    (hash hash' : PyStr) (hhash : payloadHash lib left = .ok hash)
    (hhash' : payloadHash lib right = .ok hash') :
    hash = hash' ↔ SameValue left right := by
  obtain ⟨depth, _, hparsed⟩ := (loads_unpaired hunicode hread).of_occurs hleft
  obtain ⟨depth', _, hparsed'⟩ := (loads_unpaired hunicode' hread').of_occurs hright
  have hjson : JsonValue Unpaired isFloat left :=
    hparsed.jsonValue fun number repr hoccurs => hfloats number repr (Or.inl hoccurs)
  have hjson' : JsonValue Unpaired isFloat right :=
    hparsed'.jsonValue fun number repr hoccurs => hfloats number repr (Or.inr hoccurs)
  constructor
  · rintro rfl
    exact sameValue_of_units units_injective_of_unpaired hjson hjson'
      (written_eq_of_hash hrepr hfree hjson hjson' hhash hhash')
  · intro hsame
    rw [payloadHash, encode_eq_of_same hjson hjson' hsame, ← payloadHash, hhash']
      at hhash
    exact (Except.ok.inj hhash).symm

namespace Reference

def swappedText : PyStr :=
  py "\x7b\"payload\":\x7b\"items\":[1,true],\"amount\":15e-1\x7d\x7d"

def swappedBody : PyVal :=
  .dict (objectEntries [(py "payload", .dict (objectEntries (order true)))])

theorem loads_swappedText : loads reader swappedText = .ok swappedBody := by
  decide +kernel

end Reference

/-- The two texts of the order hash alike. -/
theorem parsed_payload_hash_iff_order :
    payloadHash Reference.lib (.dict (objectEntries (order false))) =
      payloadHash Reference.lib (.dict (objectEntries (order true))) := by
  have hmade : ∀ swapped, ∃ hash,
      payloadHash Reference.lib (.dict (objectEntries (order swapped))) = .ok hash := by
    intro swapped
    exact ⟨_, (payloadHash_eq_ok_iff _ (order_json swapped) _).mpr
      ⟨by cases swapped <;> decide +kernel, rfl⟩⟩
  obtain ⟨hash, hhash⟩ := hmade false
  obtain ⟨hash', hhash'⟩ := hmade true
  have hsame := (parsed_payload_hash_iff Reference.reader Reference.lib
    floatRepr_oneAndAHalf Reference.collisionFree Reference.bodyText
    Reference.swappedText Reference.body Reference.swappedBody _ _
    (by decide +kernel) (by decide +kernel) Reference.loads_bodyText
    Reference.loads_swappedText (.member List.mem_cons_self .here)
    (.member List.mem_cons_self .here)
    (fun _ _ hoccurs => hoccurs.elim (order_json false).of_occurs
      (order_json true).of_occurs) hash hash' hhash hhash').mpr
    (sameValue_dict.mpr ⟨rfl, fun x hx => ⟨x, by simpa [order, or_comm] using hx, rfl,
      (order_members_json hx).sameValue_refl⟩⟩)
  rw [hhash, hhash', hsame]

end QwedA2A
