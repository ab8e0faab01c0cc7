/-
The text that the payload hash is taken of.  `encode` sorts, renders and may
give up; on JSON values it gives up by their shape alone, and what it writes is
a rendering of the value with its members in key order and its strings by
UTF-16 code units.
-/
import QwedA2A.PyJson
import QwedA2A.UniqueReading

namespace QwedA2A

namespace PyJson

def objectEntries {α : Type} (members : List (PyStr × α)) : List (PyVal × α) :=
  members.map fun member => (.str member.1, member.2)

/-- JSON values over a class of texts: objects with distinct string keys, and
floats with the text their type gives them. -/
inductive JsonValue (isText : PyStr → Prop) (isFloat : ℚ → PyStr → Prop) :
    PyVal → Prop
  | pyNone : JsonValue isText isFloat .pyNone
  | bool (b : Bool) : JsonValue isText isFloat (.bool b)
  | int (n : ℤ) : JsonValue isText isFloat (.int n)
  | float {x : ℚ} {repr : PyStr} (hfloat : isFloat x repr) :
      JsonValue isText isFloat (.float (.rat x) repr)
  | str {s : PyStr} (htext : isText s) : JsonValue isText isFloat (.str s)
  | list {items : List PyVal}
      (hitems : ∀ item ∈ items, JsonValue isText isFloat item) :
      JsonValue isText isFloat (.list items)
  | dict {members : List (PyStr × PyVal)}
      (hdistinct : (members.map Prod.fst).Nodup)
      (hnames : ∀ member ∈ members, isText member.1)
      (hmembers : ∀ member ∈ members, JsonValue isText isFloat member.2) :
      JsonValue isText isFloat (.dict (objectEntries members))

mutual

/-- The same value up to the order of object members. -/
def SameValue : PyVal → PyVal → Prop
  | .pyNone, .pyNone => True
  | .bool a, .bool b => a = b
  | .int m, .int n => m = n
  | .float x r, .float y q => x = y ∧ r = q
  | .str s, .str t => s = t
  | .list xs, .list ys => SameItems xs ys
  | .dict xs, .dict ys => xs.length = ys.length ∧ SameMembers xs ys
  | .other s, .other t => s = t
  | _, _ => False

/-- The same items in the same order. -/
def SameItems : List PyVal → List PyVal → Prop
  | [], [] => True
  | x :: xs, y :: ys => SameValue x y ∧ SameItems xs ys
  | _, _ => False

/-- Every member has a counterpart of the same value under its key. -/
def SameMembers : List (PyVal × PyVal) → PyDict → Prop
  | [], _ => True
  | (key, value) :: rest, ys =>
      (∃ other, (key, other) ∈ ys ∧ SameValue value other) ∧ SameMembers rest ys

end

theorem sameItems_iff_forall₂ (xs ys : List PyVal) :
    SameItems xs ys ↔ List.Forall₂ SameValue xs ys := by
  induction xs generalizing ys with
  | nil =>
      cases ys with
      | nil => simp [SameItems]
      | cons y ys => simp [SameItems]
  | cons x xs ih =>
      cases ys with
      | nil => simp [SameItems]
      | cons y ys => simp [SameItems, ih]

theorem sameMembers_iff (xs ys : PyDict) :
    SameMembers xs ys ↔
      ∀ entry ∈ xs, ∃ other, (entry.1, other) ∈ ys ∧ SameValue entry.2 other := by
  induction xs with
  | nil => simp [SameMembers]
  | cons entry rest ih => simp [SameMembers, ih]

/-- One character by its UTF-16 code units, each again a character. -/
def charUnits (c : PyChar) : PyStr :=
  if c.val < 0x10000 then [c]
  else
    [Fin.ofNat _ (0xD800 + (c.val - 0x10000) / 1024),
      Fin.ofNat _ (0xDC00 + (c.val - 0x10000) % 1024)]

def units (s : PyStr) : PyStr := s.flatMap charUnits

/-- A character that is neither plain nor short has a numeric escape. -/
theorem escapeChar_of_high {c : PyChar} (hlow : 0x7E < c.val)
    (hhigh : c.val < 0x10000) : escapeChar true c = unicodeEscape c.val := by
  rw [escapeChar]
  simp only [Bool.not_true, Bool.false_or, decide_eq_true_eq]
  rw [if_neg (by omega), if_neg (by omega), if_neg (by omega), if_neg (by omega),
    if_neg (by omega), if_neg (by omega), if_neg (by omega), if_neg (by omega),
    if_neg (by omega), if_pos hhigh]

theorem escapeChar_units (c : PyChar) :
    escapeChar true c = (charUnits c).flatMap (escapeChar true) := by
  rw [charUnits]
  split_ifs with hbmp
  · simp
  · have hc := c.isLt
    have hval : ∀ n, n < 0x110000 → (Fin.ofNat 0x110000 n).val = n :=
      fun n hn => Nat.mod_eq_of_lt hn
    have hfirst : (c.val - 0x10000) / 1024 < 1024 := by omega
    have hsecond : (c.val - 0x10000) % 1024 < 1024 := Nat.mod_lt _ (by omega)
    have hlead := hval (0xD800 + (c.val - 0x10000) / 1024) (by omega)
    have htrail := hval (0xDC00 + (c.val - 0x10000) % 1024) (by omega)
    have hpair : escapeChar true c =
        unicodeEscape (0xD800 + (c.val - 0x10000) / 1024) ++
          unicodeEscape (0xDC00 + (c.val - 0x10000) % 1024) := by
      rw [escapeChar]
      simp only [Bool.not_true, Bool.false_or, decide_eq_true_eq]
      rw [if_neg (by omega), if_neg (by omega), if_neg (by omega),
        if_neg (by omega), if_neg (by omega), if_neg (by omega),
        if_neg (by omega), if_neg (by omega), if_neg (by omega), if_neg hbmp]
    rw [hpair, List.flatMap_cons, List.flatMap_singleton,
      escapeChar_of_high (by rw [hlead]; omega) (by rw [hlead]; omega),
      escapeChar_of_high (by rw [htrail]; omega) (by rw [htrail]; omega),
      hlead, htrail]

theorem quote_units (s : PyStr) : quote true (units s) = quote true s := by
  have hbody : (units s).flatMap (escapeChar true) = s.flatMap (escapeChar true) := by
    rw [units, List.flatMap_assoc]
    simp only [← escapeChar_units]
  rw [quote, hbody, quote]

/-- The order in which members are written. -/
def NameLe {α : Type} (a b : PyStr × α) : Prop := a.1 ≤ b.1

instance {α : Type} : DecidableRel (NameLe (α := α)) :=
  fun a b => inferInstanceAs (Decidable (a.1 ≤ b.1))

instance {α : Type} : Std.Total (NameLe (α := α)) :=
  ⟨fun a b => le_total a.1 b.1⟩

instance {α : Type} : IsTrans (PyStr × α) NameLe :=
  ⟨fun _ _ _ hab hbc => le_trans hab hbc⟩

def inKeyOrder {α : Type} (members : List (PyStr × α)) : List (PyStr × α) :=
  members.insertionSort NameLe

theorem mem_inKeyOrder {α : Type} {members : List (PyStr × α)}
    {member : PyStr × α} : member ∈ inKeyOrder members ↔ member ∈ members :=
  (List.perm_insertionSort NameLe members).mem_iff

theorem length_inKeyOrder {α : Type} (members : List (PyStr × α)) :
    (inKeyOrder members).length = members.length :=
  (List.perm_insertionSort NameLe members).length_eq

theorem objectEntries_injective {α : Type} {xs ys : List (PyStr × α)}
    (h : objectEntries xs = objectEntries ys) : xs = ys := by
  refine List.map_injective_iff.mpr ?_ h
  intro x y hxy
  rw [Prod.mk.injEq, PyVal.str.injEq] at hxy
  exact Prod.ext hxy.1 hxy.2

/-- Under distinct keys the order of the members is lost. -/
theorem inKeyOrder_eq_of_perm {α : Type} {xs ys : List (PyStr × α)}
    (hperm : xs.Perm ys) (hdistinct : (xs.map Prod.fst).Nodup) :
    inKeyOrder xs = inKeyOrder ys := by
  have hxs : (inKeyOrder xs).Pairwise NameLe := List.pairwise_insertionSort NameLe xs
  have hys : (inKeyOrder ys).Pairwise NameLe := List.pairwise_insertionSort NameLe ys
  have hsame : (inKeyOrder xs).Perm (inKeyOrder ys) :=
    (List.perm_insertionSort NameLe xs).trans
      (hperm.trans (List.perm_insertionSort NameLe ys).symm)
  refine List.Perm.eq_of_pairwise ?_ hxs hys hsame
  intro a b ha hb hab hba
  have hkey : a.1 = b.1 := le_antisymm hab hba
  have hb' : b ∈ xs := hperm.mem_iff.mpr (mem_inKeyOrder.mp hb)
  exact List.inj_on_of_nodup_map hdistinct (mem_inKeyOrder.mp ha) hb' hkey

theorem inKeyOrder_map {α β : Type} (f : α → β) (members : List (PyStr × α)) :
    inKeyOrder (members.map fun member => (member.1, f member.2)) =
      (inKeyOrder members).map fun member => (member.1, f member.2) :=
  (List.map_insertionSort NameLe NameLe (fun member => (member.1, f member.2))
    members fun _ _ _ _ => Iff.rfl).symm

theorem insertionSort_objectEntries {α : Type} (members : List (PyStr × α)) :
    (objectEntries members).insertionSort (fun a b => keyLe a.1 b.1 = true) =
      objectEntries (inKeyOrder members) :=
  (List.map_insertionSort NameLe
    (fun a b : PyVal × α => keyLe a.1 b.1 = true)
    (fun member => (.str member.1, member.2)) members
    (fun a _ b _ => by simp [NameLe, keyLe])).symm

theorem sortItems_objectEntries {α : Type} (members : List (PyStr × α)) :
    sortItems (objectEntries members) =
      .ok (objectEntries (inKeyOrder members)) := by
  have hstr : (objectEntries members).all (fun item => isStrKey item.1) = true := by
    simp [objectEntries, isStrKey]
  rw [sortItems, if_pos (by simp [hstr]), insertionSort_objectEntries]

mutual

/-- The value as the encoder writes it: strings by their code units, members in
the order of their keys. -/
def written : PyVal → PyVal
  | .str s => .str (units s)
  | .list items => .list (writtenItems items)
  | .dict entries =>
      .dict (((writtenEntries entries).insertionSort fun a b =>
        keyLe a.1 b.1 = true).map fun entry =>
          (match entry.1 with
            | .str s => .str (units s)
            | key => key, entry.2))
  | value => value

def writtenItems : List PyVal → List PyVal
  | [] => []
  | item :: rest => written item :: writtenItems rest

/-- The members with their values written, under the keys as they are. -/
def writtenEntries : PyDict → PyDict
  | [] => []
  | (key, value) :: rest => (key, written value) :: writtenEntries rest

end

mutual

def render : PyVal → PyStr
  | .pyNone => py "null"
  | .bool true => py "true"
  | .bool false => py "false"
  | .int n => intText n
  | .float value repr => floatText value repr
  | .str s => quote true s
  | .list items => py "[" ++ joinWith (py ", ") (renderItems items) ++ py "]"
  | .dict entries =>
      py "\x7b" ++ joinWith (py ", ") (renderEntries entries) ++ py "\x7d"
  | .other text => quote true text

def renderItems : List PyVal → List PyStr
  | [] => []
  | item :: rest => render item :: renderItems rest

def renderEntries : PyDict → List PyStr
  | [] => []
  | (key, value) :: rest =>
      (match key with
        | .str s => quote true s ++ py ": " ++ render value
        | _ => render value) :: renderEntries rest

end

mutual

/-- The encoder's limits: nesting, and the digits of an integer. -/
def withinLimits (depth : ℕ) : PyVal → Bool
  | .int n => (natText n.natAbs).length ≤ intMaxStrDigits
  | .list items =>
      match depth with
      | 0 => false
      | depth + 1 => itemsWithinLimits depth items
  | .dict entries =>
      match depth with
      | 0 => false
      | depth + 1 => entriesWithinLimits depth entries
  | _ => true

def itemsWithinLimits (depth : ℕ) : List PyVal → Bool
  | [] => true
  | item :: rest => withinLimits depth item && itemsWithinLimits depth rest

def entriesWithinLimits (depth : ℕ) : PyDict → Bool
  | [] => true
  | (_, value) :: rest =>
      withinLimits depth value && entriesWithinLimits depth rest

end

theorem writtenItems_eq_map (items : List PyVal) :
    writtenItems items = items.map written := by
  induction items with
  | nil => rfl
  | cons item rest ih => rw [writtenItems, ih, List.map_cons]

theorem writtenEntries_objectEntries (members : List (PyStr × PyVal)) :
    writtenEntries (objectEntries members) =
      objectEntries (members.map fun member => (member.1, written member.2)) := by
  induction members with
  | nil => rfl
  | cons member rest ih =>
      simpa [objectEntries, writtenEntries] using ih

theorem renderItems_eq_map (items : List PyVal) :
    renderItems items = items.map render := by
  induction items with
  | nil => rfl
  | cons item rest ih => rw [renderItems, ih, List.map_cons]

def renderMember (member : PyStr × PyVal) : PyStr :=
  quote true member.1 ++ py ": " ++ render member.2

theorem renderEntries_objectEntries (members : List (PyStr × PyVal)) :
    renderEntries (objectEntries members) = members.map renderMember := by
  induction members with
  | nil => rfl
  | cons member rest ih =>
      simpa [objectEntries, renderEntries, renderMember] using ih

theorem itemsWithinLimits_iff (depth : ℕ) (items : List PyVal) :
    itemsWithinLimits depth items = true ↔
      ∀ item ∈ items, withinLimits depth item = true := by
  induction items with
  | nil => simp [itemsWithinLimits]
  | cons item rest ih => simp [itemsWithinLimits, ih]

theorem entriesWithinLimits_objectEntries (depth : ℕ)
    (members : List (PyStr × PyVal)) :
    entriesWithinLimits depth (objectEntries members) = true ↔
      ∀ member ∈ members, withinLimits depth member.2 = true := by
  induction members with
  | nil => simp [objectEntries, entriesWithinLimits]
  | cons member rest ih =>
      simp only [objectEntries, List.map_cons, entriesWithinLimits,
        Bool.and_eq_true, List.mem_cons, forall_eq_or_imp]
      rw [← ih, objectEntries]

theorem written_dict (members : List (PyStr × PyVal)) :
    written (.dict (objectEntries members)) =
      .dict (objectEntries ((inKeyOrder members).map fun member =>
        (units member.1, written member.2))) := by
  rw [written, writtenEntries_objectEntries, insertionSort_objectEntries,
    inKeyOrder_map]
  simp [objectEntries, Function.comp_def]

section Encoding

variable {isText : PyStr → Prop} {isFloat : ℚ → PyStr → Prop}

theorem joinWith_eq_separated (sep : PyStr) (parts : List PyStr) :
    joinWith sep parts = UniqueReading.separated sep parts := by
  induction parts with
  | nil => rfl
  | cons part rest ih =>
      cases rest with
      | nil => rfl
      | cons next rest =>
          rw [joinWith, ih, UniqueReading.separated]
          exact List.cons_ne_nil next rest

/-- The encoder on an object: its members in key order, each rendered. -/
theorem encode_dict (depth : ℕ) (members : List (PyStr × PyVal)) :
    encode canonicalStyle (depth + 1) (.dict (objectEntries members)) =
      ((inKeyOrder (members.map fun member =>
          (member.1, encode canonicalStyle depth member.2))).mapM fun member => do
        let text ← member.2
        pure (quote true member.1 ++ py ": " ++ text)) >>= fun parts =>
      .ok (py "\x7b" ++ joinWith (py ", ") parts ++ py "\x7d") := by
  have hentries : encodeEntries canonicalStyle depth (objectEntries members) =
      objectEntries (members.map fun member =>
        (member.1, encode canonicalStyle depth member.2)) := by
    rw [encodeEntries_eq_map]
    simp [objectEntries, Function.comp_def]
  rw [encode, hentries, objectText]
  simp only [canonicalStyle, if_true, sortItems_objectEntries, ok_bind]
  rw [objectEntries, List.mapM_map]
  rfl

theorem forall₂_ok_iff {α β : Type} {f : α → Except PyExc β} {g : α → β}
    {p : α → Prop} {xs : List α}
    (hok : ∀ x ∈ xs, ∀ y, f x = .ok y ↔ p x ∧ y = g x) (ys : List β) :
    List.Forall₂ (fun x y => f x = .ok y) xs ys ↔
      (∀ x ∈ xs, p x) ∧ ys = xs.map g := by
  induction xs generalizing ys with
  | nil => simp
  | cons x xs ih =>
      cases ys with
      | nil => simp
      | cons y ys =>
          rw [List.forall₂_cons, hok x (by simp),
            ih (fun x' hx => hok x' (by simp [hx])) ys]
          simp
          tauto

/-- The encoder returns exactly within its limits, and returns the rendering of
the written form. -/
theorem encode_eq_ok_iff {value : PyVal} (h : JsonValue isText isFloat value)
    (depth : ℕ) (text : PyStr) :
    encode canonicalStyle depth value = .ok text ↔
      withinLimits depth value = true ∧ text = render (written value) := by
  induction h generalizing depth text with
  | pyNone => simp [encode, withinLimits, written, render, eq_comm]
  | bool b => cases b <;> simp [encode, withinLimits, written, render, eq_comm]
  | int n =>
      simp only [encode, intRepr, withinLimits, written, render,
        decide_eq_true_eq]
      split_ifs with hdigits
      · simp [hdigits, eq_comm]
      · simp [hdigits]
  | float hfloat => simp [encode, withinLimits, written, render, eq_comm]
  | str htext =>
      rename_i s
      simp [encode, withinLimits, written, render, canonicalStyle, eq_comm,
        ← quote_units s]
  | list hitems ih =>
      rename_i items
      cases depth with
      | zero => simp [encode, withinLimits]
      | succ depth =>
          rw [encode, encodeItems_eq_map, List.mapM_map, withinLimits,
            itemsWithinLimits_iff, written, render, writtenItems_eq_map,
            renderItems_eq_map, List.map_map]
          exact bind_ok_iff (fun parts => mapM_ok_iff.trans (forall₂_ok_iff
            (fun item hitem part => ih item hitem depth part) parts)) _ text
  | dict hdistinct hnames hmembers ih =>
      rename_i members
      cases depth with
      | zero => simp [encode, withinLimits]
      | succ depth =>
          rw [encode_dict, inKeyOrder_map, List.mapM_map, withinLimits,
            entriesWithinLimits_objectEntries, written_dict, render,
            renderEntries_objectEntries, List.map_map]
          have hpart : ∀ member ∈ inKeyOrder members, ∀ part,
              (do let text ← encode canonicalStyle depth member.2
                  pure (quote true member.1 ++ py ": " ++ text)) =
                  (.ok part : Except PyExc PyStr) ↔
                withinLimits depth member.2 = true ∧
                  part = renderMember (units member.1, written member.2) := by
            intro member hmember part
            rw [renderMember, ← quote_units]
            exact bind_ok_iff (ih member (mem_inKeyOrder.mp hmember) depth) _ part
          have hparts := fun parts => mapM_ok_iff.trans
            (forall₂_ok_iff hpart parts)
          simp only [mem_inKeyOrder] at hparts
          exact bind_ok_iff hparts _ text

theorem map_eq_of_forall₂ {α β γ : Type} {R : α → β → Prop} {f : α → γ}
    {g : β → γ} {xs : List α} {ys : List β} (h : List.Forall₂ R xs ys)
    (heq : ∀ x ∈ xs, ∀ y ∈ ys, R x y → f x = g y) : xs.map f = ys.map g := by
  induction h with
  | nil => rfl
  | cons hhead htail ih =>
      rw [List.map_cons, List.map_cons, heq _ (by simp) _ (by simp) hhead,
        ih fun x hx y hy => heq x (by simp [hx]) y (by simp [hy])]

/-- The members of two objects that are the same up to order, each under what
the encoder makes of its value. -/
theorem perm_of_sameMembers {β : Type} {f : PyVal → β}
    {xs ys : List (PyStr × PyVal)} (hdistinct : (xs.map Prod.fst).Nodup)
    (hlength : xs.length = ys.length)
    (hsame : ∀ x ∈ xs, ∃ y ∈ ys, x.1 = y.1 ∧ f x.2 = f y.2) :
    (xs.map fun x => (x.1, f x.2)).Perm (ys.map fun y => (y.1, f y.2)) := by
  have hnodup : (xs.map fun x => (x.1, f x.2)).Nodup := by
    apply List.Nodup.of_map Prod.fst
    simpa [Function.comp_def] using hdistinct
  have hsubset : (xs.map fun x => (x.1, f x.2)) ⊆ ys.map fun y => (y.1, f y.2) := by
    intro entry hentry
    obtain ⟨x, hx, rfl⟩ := List.mem_map.mp hentry
    obtain ⟨y, hy, hkey, hvalue⟩ := hsame x hx
    exact List.mem_map.mpr ⟨y, hy, by rw [hkey, hvalue]⟩
  exact (List.subperm_of_subset hnodup hsubset).perm_of_length_le (by simp [hlength])

theorem sameMembers_objectEntries {xs ys : List (PyStr × PyVal)} :
    SameMembers (objectEntries xs) (objectEntries ys) ↔
      ∀ x ∈ xs, ∃ y ∈ ys, x.1 = y.1 ∧ SameValue x.2 y.2 := by
  rw [sameMembers_iff]
  simp only [objectEntries, List.mem_map, forall_exists_index, and_imp,
    forall_apply_eq_imp_iff₂, Prod.mk.injEq, PyVal.str.injEq]
  constructor
  · intro h x hx
    obtain ⟨other, ⟨y, hy, hkey, rfl⟩, hvalue⟩ := h x hx
    exact ⟨y, hy, hkey.symm, hvalue⟩
  · intro h x hx
    obtain ⟨y, hy, hkey, hvalue⟩ := h x hx
    exact ⟨y.2, ⟨y, hy, hkey.symm, rfl⟩, hvalue⟩

theorem sameValue_dict {xs ys : List (PyStr × PyVal)} :
    SameValue (.dict (objectEntries xs)) (.dict (objectEntries ys)) ↔
      xs.length = ys.length ∧
        ∀ x ∈ xs, ∃ y ∈ ys, x.1 = y.1 ∧ SameValue x.2 y.2 := by
  rw [SameValue, sameMembers_objectEntries]
  simp [objectEntries]

theorem sameValue_list {xs ys : List PyVal} :
    SameValue (.list xs) (.list ys) ↔ List.Forall₂ SameValue xs ys := by
  rw [SameValue, sameItems_iff_forall₂]

theorem JsonValue.sameValue_refl {value : PyVal}
    (h : JsonValue isText isFloat value) : SameValue value value := by
  induction h with
  | pyNone => rw [SameValue]; trivial
  | bool b => rw [SameValue]
  | int n => rw [SameValue]
  | float hfloat => rw [SameValue]; exact ⟨rfl, rfl⟩
  | str htext => rw [SameValue]
  | list hitems ih =>
      rw [sameValue_list]
      exact List.forall₂_same.mpr ih
  | dict hdistinct hnames hmembers ih =>
      rw [sameValue_dict]
      exact ⟨rfl, fun x hx => ⟨x, hx, rfl, ih x hx⟩⟩

/-- Values that are the same up to member order are encoded alike, also when
the encoder raises. -/
theorem encode_eq_of_same {left right : PyVal} (hleft : JsonValue isText isFloat left)
    (hright : JsonValue isText isFloat right) (hsame : SameValue left right) (depth : ℕ) :
    encode canonicalStyle depth left = encode canonicalStyle depth right := by
  induction hleft generalizing right depth with
  | pyNone => cases hright <;> simp_all [SameValue]
  | bool b => cases hright <;> simp_all [SameValue]
  | int n => cases hright <;> simp_all [SameValue]
  | float hfloat => cases hright <;> simp_all [SameValue]
  | str htext => cases hright <;> simp_all [SameValue]
  | list hitems ih =>
      cases hright with
      | list hothers =>
          cases depth with
          | zero => rw [encode, encode]
          | succ depth =>
              rw [sameValue_list] at hsame
              rw [encode, encode, encodeItems_eq_map, encodeItems_eq_map,
                map_eq_of_forall₂ hsame fun x hx y hy hxy =>
                  ih x hx (hothers y hy) hxy depth]
      | _ => simp [SameValue] at hsame
  | dict hdistinct hnames hmembers ih =>
      cases hright with
      | dict hdistinct' hnames' hothers =>
          cases depth with
          | zero => rw [encode, encode]
          | succ depth =>
              rw [sameValue_dict] at hsame
              rw [encode_dict, encode_dict, inKeyOrder_eq_of_perm]
              · exact perm_of_sameMembers hdistinct hsame.1 fun x hx => by
                    obtain ⟨y, hy, hkey, hvalue⟩ := hsame.2 x hx
                    exact ⟨y, hy, hkey, ih x hx (hothers y hy) hvalue depth⟩
              · simpa [Function.comp_def] using hdistinct
      | _ => simp [SameValue] at hsame

end Encoding

end PyJson

end QwedA2A
