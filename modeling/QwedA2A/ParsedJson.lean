/-
What `json.loads` returns, on every text it reads: objects under distinct string
keys, integers that print, floats with their own text.  Of a text without
surrogates, its strings are determined by their UTF-16 code units.
-/
import QwedA2A.JsonScan
import QwedA2A.JsonReading
import QwedA2A.PayloadDomain
import Mathlib.Data.List.TakeWhile

namespace QwedA2A

mutual

def PyVal.equal : PyVal → PyVal → Bool
  | .pyNone, .pyNone => true
  | .bool a, .bool b => a = b
  | .int m, .int n => m = n
  | .float x r, .float y q => x = y && r = q
  | .str s, .str t => s = t
  | .list xs, .list ys => equalItems xs ys
  | .dict xs, .dict ys => equalEntries xs ys
  | .other s, .other t => s = t
  | _, _ => false

def equalItems : List PyVal → List PyVal → Bool
  | [], [] => true
  | x :: xs, y :: ys => x.equal y && equalItems xs ys
  | _, _ => false

def equalEntries : PyDict → PyDict → Bool
  | [], [] => true
  | (key, x) :: xs, (other, y) :: ys =>
      key.equal other && x.equal y && equalEntries xs ys
  | _, _ => false

end

mutual

theorem PyVal.equal_iff (a b : PyVal) : a.equal b = true ↔ a = b := by
  cases a with
  | list xs => cases b <;> simp [PyVal.equal, equalItems_iff xs]
  | dict xs => cases b <;> simp [PyVal.equal, equalEntries_iff xs]
  | _ => cases b <;> simp [PyVal.equal]

theorem equalItems_iff (xs ys : List PyVal) : equalItems xs ys = true ↔ xs = ys := by
  cases xs with
  | nil => cases ys <;> simp [equalItems]
  | cons x xs => cases ys <;> simp [equalItems, x.equal_iff, equalItems_iff xs]

theorem equalEntries_iff (xs ys : PyDict) : equalEntries xs ys = true ↔ xs = ys := by
  cases xs with
  | nil => cases ys <;> simp [equalEntries]
  | cons x xs =>
      obtain ⟨key, x⟩ := x
      cases ys <;>
        simp [equalEntries, key.equal_iff, x.equal_iff, equalEntries_iff xs, Prod.ext_iff]

end

instance : DecidableEq PyVal := fun a b => decidable_of_iff _ (a.equal_iff b)

namespace PyJson

def isHigh (c : PyChar) : Bool := 0xD800 ≤ c.val && c.val ≤ 0xDBFF

def isLow (c : PyChar) : Bool := 0xDC00 ≤ c.val && c.val ≤ 0xDFFF

/-- No high surrogate stands directly before a low one. -/
def Unpaired (s : PyStr) : Prop :=
  s.IsChain fun c d => ¬ (isHigh c = true ∧ isLow d = true)

def pairChar (high low : PyChar) : PyChar :=
  Fin.ofNat _ (0x10000 + 0x400 * (high.val - 0xD800) + (low.val - 0xDC00))

def joinUnits : PyStr → PyStr
  | c :: d :: rest =>
      if isHigh c && isLow d then pairChar c d :: joinUnits rest
      else c :: joinUnits (d :: rest)
  | rest => rest

theorem isHigh_iff {c : PyChar} :
    isHigh c = true ↔ 0xD800 ≤ c.val ∧ c.val ≤ 0xDBFF := by
  simp [isHigh]

theorem isLow_iff {c : PyChar} :
    isLow c = true ↔ 0xDC00 ≤ c.val ∧ c.val ≤ 0xDFFF := by
  simp [isLow]

/-- Beyond the basic plane a character is a pair of surrogates. -/
theorem charUnits_pair {c : PyChar} (h : ¬ c.val < 0x10000) :
    ∃ high low, charUnits c = [high, low] ∧ isHigh high = true ∧ isLow low = true ∧
      pairChar high low = c := by
  have hlt := c.isLt
  have hval : ∀ n, n < 0x110000 → (Fin.ofNat 0x110000 n).val = n :=
    fun n hn => Nat.mod_eq_of_lt hn
  have hhigh := hval (0xD800 + (c.val - 0x10000) / 1024) (by omega)
  have hlow := hval (0xDC00 + (c.val - 0x10000) % 1024) (by omega)
  refine ⟨_, _, if_neg h, ?_, ?_, ?_⟩
  · rw [isHigh_iff, hhigh]
    omega
  · rw [isLow_iff, hlow]
    omega
  · apply Fin.ext
    rw [pairChar, hhigh, hlow, hval _ (by omega)]
    omega

/-- The first code unit of a character is low only if the character is. -/
theorem charUnits_lead (c : PyChar) :
    ∃ first rest, charUnits c = first :: rest ∧
      (isLow first = true → isLow c = true) := by
  by_cases hbmp : c.val < 0x10000
  · exact ⟨c, [], if_pos hbmp, id⟩
  · obtain ⟨high, low, hunits, hhigh, _, _⟩ := charUnits_pair hbmp
    refine ⟨high, [low], hunits, fun hlow => ?_⟩
    rw [isHigh_iff] at hhigh
    rw [isLow_iff] at hlow
    omega

/-- Without such pairs a text is read back from its code units. -/
theorem joinUnits_units {s : PyStr} (h : Unpaired s) : joinUnits (units s) = s := by
  induction s with
  | nil => rfl
  | cons c rest ih =>
      have hrest : joinUnits (units rest) = rest := ih h.of_cons
      rw [units, List.flatMap_cons, ← units]
      by_cases hbmp : c.val < 0x10000
      · rw [charUnits, if_pos hbmp, List.singleton_append]
        cases rest with
        | nil => rfl
        | cons d tail =>
            have hapart : ¬ (isHigh c = true ∧ isLow d = true) :=
              (List.isChain_cons_cons.mp h).1
            obtain ⟨first, more, hfirst, hlead⟩ := charUnits_lead d
            have hunits : units (d :: tail) = first :: (more ++ units tail) := by
              rw [units, List.flatMap_cons, ← units, hfirst, List.cons_append]
            rw [hunits] at hrest ⊢
            rw [joinUnits, if_neg, hrest]
            rw [Bool.and_eq_true]
            exact fun hpair => hapart ⟨hpair.1, hlead hpair.2⟩
      · obtain ⟨high, low, hunits, hhigh, hlow, hpair⟩ := charUnits_pair hbmp
        rw [hunits, List.cons_append, List.cons_append, List.nil_append, joinUnits,
          if_pos (by rw [hhigh, hlow]; rfl), hpair, hrest]

theorem units_injective_of_unpaired {s t : PyStr} (hs : Unpaired s)
    (ht : Unpaired t) (h : units s = units t) : s = t := by
  rw [← joinUnits_units hs, h, joinUnits_units ht]

theorem isUnicode_iff {s : PyStr} :
    isUnicode s = true ↔ ∀ c ∈ s, c.val < 0xD800 ∨ 0xDFFF < c.val := by
  simp [isUnicode]

theorem isUnicode_of_suffix {s t : PyStr} (h : s <:+ t) (ht : isUnicode t = true) :
    isUnicode s = true :=
  isUnicode_iff.mpr fun c hc => isUnicode_iff.mp ht c (h.subset hc)

theorem not_isHigh_of_unicode {s : PyStr} (h : isUnicode s = true) {c : PyChar}
    (hc : c ∈ s) : isHigh c = false := by
  have hplain := isUnicode_iff.mp h c hc
  rw [Bool.eq_false_iff, ne_eq, isHigh_iff]
  omega

theorem not_isLow_of_unicode {s : PyStr} (h : isUnicode s = true) {c : PyChar}
    (hc : c ∈ s) : isLow c = false := by
  have hplain := isUnicode_iff.mp h c hc
  rw [Bool.eq_false_iff, ne_eq, isLow_iff]
  omega

/-- A scanner takes characters off the front alone. -/
def LeavesSuffix {α : Type} (scanner : Scanner α) : Prop :=
  ∀ text value rest, scanner text = .ok (value, rest) → rest <:+ text

theorem skipBlanks_suffix (text : PyStr) : skipBlanks text <:+ text :=
  List.dropWhile_suffix _

theorem scanHex4_suffix {text : PyStr} {unit : ℕ} {rest : PyStr}
    (h : scanHex4 text = some (unit, rest)) : unit < 0x10000 ∧ rest <:+ text := by
  have hdigit : ∀ {c : PyChar} {value : ℕ}, hexDigitValue c = some value →
      value < 16 := by
    intro c value hvalue
    rw [hexDigitValue] at hvalue
    split_ifs at hvalue <;> cases hvalue <;> omega
  match text with
  | a :: b :: c :: d :: tail =>
      simp only [scanHex4, Option.bind_eq_bind, Option.bind_eq_some_iff,
        Option.some.injEq, Prod.mk.injEq] at h
      obtain ⟨a', ha, b', hb, c', hc, d', hd, hsum, rfl⟩ := h
      have hbounds := And.intro (And.intro (hdigit ha) (hdigit hb))
        (And.intro (hdigit hc) (hdigit hd))
      exact ⟨by omega, [a, b, c, d], rfl⟩
  | [] | [_] | [_, _] | [_, _, _] => cases h

theorem scanLowSurrogate_some {text : PyStr} {low : ℕ} {rest : PyStr}
    (h : scanLowSurrogate text = .ok (some (low, rest))) :
    (0xDC00 ≤ low ∧ low ≤ 0xDFFF) ∧ rest <:+ text := by
  match text with
  | slash :: u :: tail =>
      rw [scanLowSurrogate] at h
      split_ifs at h with hescape
      · split at h
        · cases h
        next unit after hhex =>
          split_ifs at h with hlow
          · cases h
            exact ⟨hlow, (scanHex4_suffix hhex).2.trans ⟨[slash, u], rfl⟩⟩
          · cases h
      · cases h
  | [] | [_] => cases h

theorem simpleEscape_plain {c d : PyChar} (h : simpleEscape c = some d) :
    d.val < 0x80 := by
  rw [simpleEscape] at h
  split_ifs at h with hself <;> cases h
  · omega
  all_goals decide

/-- An escape that stands for a high surrogate is not followed by one that stands
for a low one. -/
theorem scanEscape_spec {text : PyStr} {c : PyChar} {rest : PyStr}
    (h : scanEscape text = .ok (c, rest)) :
    rest <:+ text ∧ (isHigh c = true → scanLowSurrogate rest = .ok none) := by
  cases text with
  | nil => cases h
  | cons head tail =>
      have hval : ∀ n, n < 0x110000 → (Fin.ofNat 0x110000 n).val = n :=
        fun n hn => Nat.mod_eq_of_lt hn
      rw [scanEscape] at h
      split_ifs at h with hu
      · split at h
        · cases h
        next unit after hhex =>
          obtain ⟨hunit, hafter⟩ := scanHex4_suffix hhex
          split_ifs at h with hhigh
          · obtain ⟨pair, hpair, h⟩ := bind_eq_ok.mp h
            cases pair with
            | none =>
                obtain ⟨rfl, rfl⟩ := Prod.mk.inj (Except.ok.inj h)
                exact ⟨hafter.trans (List.suffix_cons _ _), fun _ => hpair⟩
            | some low =>
                obtain ⟨hlow, hlast⟩ := scanLowSurrogate_some hpair
                obtain ⟨rfl, rfl⟩ := Prod.mk.inj (Except.ok.inj h)
                refine ⟨(hlast.trans hafter).trans (List.suffix_cons _ _), ?_⟩
                rw [isHigh_iff, hval _ (by omega)]
                omega
          · obtain ⟨rfl, rfl⟩ := Prod.mk.inj (Except.ok.inj h)
            refine ⟨hafter.trans (List.suffix_cons _ _), ?_⟩
            rw [isHigh_iff, hval _ (by omega)]
            exact fun hfound => absurd hfound hhigh
      · split at h
        next found hfound =>
          cases h
          have hplain := simpleEscape_plain hfound
          refine ⟨List.suffix_cons _ _, ?_⟩
          rw [isHigh_iff]
          omega
        next => cases h

/-- An escape that is no low surrogate escape stands for no low surrogate. -/
theorem scanEscape_low {slash : PyChar} {text : PyStr} {c : PyChar} {rest : PyStr}
    (hslash : slash.val = 0x5C) (h : scanEscape text = .ok (c, rest))
    (hnone : scanLowSurrogate (slash :: text) = .ok none) : isLow c = false := by
  rw [Bool.eq_false_iff, ne_eq, isLow_iff]
  cases text with
  | nil => cases h
  | cons u tail =>
      have hval : ∀ n, n < 0x110000 → (Fin.ofNat 0x110000 n).val = n :=
        fun n hn => Nat.mod_eq_of_lt hn
      rw [scanEscape] at h
      split_ifs at h with hu
      · rw [scanLowSurrogate, if_pos ⟨hslash, hu⟩] at hnone
        split at h
        · cases h
        next unit after hhex =>
          simp only [hhex] at hnone
          have hunit := (scanHex4_suffix hhex).1
          have hplain : ¬ (0xDC00 ≤ unit ∧ unit ≤ 0xDFFF) := by
            intro hlow
            rw [if_pos hlow] at hnone
            cases hnone
          split_ifs at h with hhigh
          · obtain ⟨pair, hpair, h⟩ := bind_eq_ok.mp h
            cases pair with
            | none =>
                obtain ⟨rfl, rfl⟩ := Prod.mk.inj (Except.ok.inj h)
                rwa [hval _ (by omega)]
            | some low =>
                have hrange := (scanLowSurrogate_some hpair).1
                obtain ⟨rfl, rfl⟩ := Prod.mk.inj (Except.ok.inj h)
                rw [hval _ (by omega)]
                omega
          · obtain ⟨rfl, rfl⟩ := Prod.mk.inj (Except.ok.inj h)
            rwa [hval _ (by omega)]
      · split at h
        next found hfound =>
          cases h
          have hplain := simpleEscape_plain hfound
          omega
        next => cases h

theorem scanString_suffix (fuel : ℕ) : LeavesSuffix (scanString fuel) := by
  induction fuel with
  | zero =>
      intro text chars rest h
      cases h
  | succ fuel ih =>
      intro text chars rest h
      cases text with
      | nil => cases h
      | cons c tail =>
          rw [scanString] at h
          split_ifs at h with hquote hslash hcontrol
          · cases h
            exact List.suffix_cons _ _
          · obtain ⟨⟨char, after⟩, hescape, h⟩ := bind_eq_ok.mp h
            obtain ⟨⟨more, last⟩, hmore, h⟩ := bind_eq_ok.mp h
            cases h
            exact ((ih _ _ _ hmore).trans (scanEscape_spec hescape).1).trans
              (List.suffix_cons _ _)
          · obtain ⟨⟨more, last⟩, hmore, h⟩ := bind_eq_ok.mp h
            cases h
            exact (ih _ _ _ hmore).trans (List.suffix_cons _ _)

/-- A string that begins with a low surrogate has it from an escape. -/
theorem scanString_low {fuel : ℕ} {text chars rest : PyStr}
    (hunicode : isUnicode text = true)
    (h : scanString fuel text = .ok (chars, rest))
    (hnone : scanLowSurrogate text = .ok none) : ∀ d ∈ chars.head?, isLow d = false := by
  cases fuel with
  | zero => cases h
  | succ fuel =>
      cases text with
      | nil => cases h
      | cons c tail =>
          rw [scanString] at h
          split_ifs at h with hquote hslash hcontrol
          · cases h
            simp
          · obtain ⟨⟨char, after⟩, hescape, h⟩ := bind_eq_ok.mp h
            obtain ⟨⟨more, last⟩, _, h⟩ := bind_eq_ok.mp h
            cases h
            simp only [List.head?_cons, Option.mem_some_iff, forall_eq']
            exact scanEscape_low hslash hescape hnone
          · obtain ⟨⟨more, last⟩, _, h⟩ := bind_eq_ok.mp h
            cases h
            simp only [List.head?_cons, Option.mem_some_iff, forall_eq']
            exact not_isLow_of_unicode hunicode List.mem_cons_self

/-- The strings of a text without surrogates are determined by their code
units. -/
theorem scanString_unpaired {fuel : ℕ} {text chars rest : PyStr}
    (hunicode : isUnicode text = true)
    (h : scanString fuel text = .ok (chars, rest)) : Unpaired chars := by
  induction fuel generalizing text chars with
  | zero => cases h
  | succ fuel ih =>
      cases text with
      | nil => cases h
      | cons c tail =>
          have htail := isUnicode_of_suffix (List.suffix_cons c tail) hunicode
          rw [scanString] at h
          split_ifs at h with hquote hslash hcontrol
          · cases h
            exact .nil
          · obtain ⟨⟨char, after⟩, hescape, h⟩ := bind_eq_ok.mp h
            obtain ⟨⟨more, last⟩, hmore, h⟩ := bind_eq_ok.mp h
            cases h
            obtain ⟨hafter, hhigh⟩ := scanEscape_spec hescape
            have hplain := isUnicode_of_suffix hafter htail
            refine (ih hplain hmore).cons fun d hd => ?_
            rintro ⟨hfirst, hsecond⟩
            rw [scanString_low hplain hmore (hhigh hfirst) d hd] at hsecond
            cases hsecond
          · obtain ⟨⟨more, last⟩, hmore, h⟩ := bind_eq_ok.mp h
            cases h
            refine (ih htail hmore).cons fun d _ => ?_
            rintro ⟨hfirst, _⟩
            rw [not_isHigh_of_unicode hunicode List.mem_cons_self] at hfirst
            cases hfirst

theorem splitSign_suffix (text : PyStr) :
    (PyDecimal.splitSign text).2 <:+ text := by
  cases text with
  | nil => exact List.suffix_rfl
  | cons c rest =>
      rw [PyDecimal.splitSign]
      split_ifs
      · exact List.suffix_cons c rest
      · exact List.suffix_cons c rest
      · exact List.suffix_rfl

theorem scanExponent_suffix {text : PyStr} {exponent : ℤ} {rest : PyStr}
    (h : scanExponent text = some (exponent, rest)) : rest <:+ text := by
  cases text with
  | nil => cases h
  | cons c tail =>
      rw [scanExponent] at h
      split_ifs at h with hmark
      have hsign := (splitSign_suffix tail).trans (List.suffix_cons c tail)
      simp only at h
      split_ifs at h with hnone <;> cases h
      all_goals exact (List.dropWhile_suffix _).trans hsign

theorem scanNumber_suffix (interp : Interpreter) :
    LeavesSuffix (scanNumber interp) := by
  intro text value rest h
  have hbody : (splitMinus text).2 <:+ text := by
    rw [splitMinus]
    split_ifs
    · exact List.tail_suffix text
    · exact List.suffix_rfl
  have hfraction : ∀ tail : PyStr, afterFraction tail <:+ tail := by
    intro tail
    rw [afterFraction]
    split_ifs
    · exact List.suffix_rfl
    · exact List.drop_suffix _ tail
  have hafter : afterFraction ((splitMinus text).2.drop
      (wholeDigits (splitMinus text).2).length) <:+ text :=
    (hfraction _).trans ((List.drop_suffix _ _).trans hbody)
  rw [scanNumber] at h
  obtain ⟨_, h⟩ := guard_eq_ok.mp h
  split at h
  next exponent last hexponent =>
    cases h
    exact (scanExponent_suffix hexponent).trans hafter
  next =>
    split_ifs at h
    · obtain ⟨number, _, h⟩ := bind_eq_ok.mp h
      cases h
      exact hafter
    · cases h
      exact hafter

theorem scanScalar_suffix (interp : Interpreter) :
    LeavesSuffix (scanScalar interp) := by
  intro text value rest h
  rw [scanScalar] at h
  split at h
  next literal _ =>
    cases h
    exact List.drop_suffix _ text
  next => exact scanNumber_suffix interp _ _ _ h

/-- A value as the reader returns it at some nesting, with its strings from a class
of texts. -/
inductive Parsed (interp : Interpreter) (isText : PyStr → Prop) : ℕ → PyVal → Prop
  | pyNone {depth : ℕ} : Parsed interp isText depth .pyNone
  | bool {depth : ℕ} (b : Bool) : Parsed interp isText depth (.bool b)
  | int {depth : ℕ} {n : ℤ} (h : Printable n) : Parsed interp isText depth (.int n)
  | float {depth : ℕ} {value : PyNum} (negative : Bool) (h : value.InRange) :
      Parsed interp isText depth (.float value (interp.signedRepr negative value))
  | str {depth : ℕ} {s : PyStr} (h : isText s) : Parsed interp isText depth (.str s)
  | list {depth : ℕ} {items : List PyVal}
      (h : ∀ item ∈ items, Parsed interp isText depth item) :
      Parsed interp isText (depth + 1) (.list items)
  | dict {depth : ℕ} {members : List (PyStr × PyVal)}
      (hdistinct : (members.map Prod.fst).Nodup)
      (hnames : ∀ member ∈ members, isText member.1)
      (h : ∀ member ∈ members, Parsed interp isText depth member.2) :
      Parsed interp isText (depth + 1) (.dict (objectEntries members))

/-- `members[name] = value`, for a dict under string keys. -/
def setMember {α : Type} (members : List (PyStr × α)) (name : PyStr) (value : α) :
    List (PyStr × α) :=
  if name ∈ members.map Prod.fst then
    members.map fun member => if member.1 = name then (name, value) else member
  else members ++ [(name, value)]

theorem dictGet_objectEntries (members : List (PyStr × PyVal)) (name : PyStr) :
    (dictGet (objectEntries members) name).isSome = true ↔
      name ∈ members.map Prod.fst := by
  induction members with
  | nil => simp [objectEntries]
  | cons member rest ih =>
      rw [objectEntries, List.map_cons, ← objectEntries, dictGet_cons_str,
        List.map_cons, List.mem_cons]
      by_cases hname : member.1 = name
      · simp [hname]
      · simp only [hname, if_false, ih, eq_comm (a := name), false_or]

theorem setEntry_objectEntries (members : List (PyStr × PyVal)) (name : PyStr)
    (value : PyVal) :
    setEntry (objectEntries members) name value =
      objectEntries (setMember members name value) := by
  rw [setEntry, setMember]
  by_cases hname : name ∈ members.map Prod.fst
  · rw [if_pos hname, if_pos ((dictGet_objectEntries members name).mpr hname),
      objectEntries, objectEntries, List.map_map, List.map_map]
    refine List.map_congr_left fun member _ => ?_
    dsimp only [Function.comp_apply]
    split_ifs <;> rfl
  · rw [if_neg hname, if_neg fun hfound =>
      hname ((dictGet_objectEntries members name).mp hfound)]
    simp [objectEntries]

theorem setMember_names {α : Type} (members : List (PyStr × α)) (name : PyStr)
    (value : α) :
    (setMember members name value).map Prod.fst =
      if name ∈ members.map Prod.fst then members.map Prod.fst
      else members.map Prod.fst ++ [name] := by
  rw [setMember]
  split_ifs with hname
  · rw [List.map_map]
    refine List.map_congr_left fun member _ => ?_
    dsimp only [Function.comp_apply]
    split_ifs with hmember
    · exact hmember.symm
    · rfl
  · rw [List.map_append, List.map_singleton]

theorem mem_setMember {α : Type} {members : List (PyStr × α)} {name : PyStr}
    {value : α} {member : PyStr × α}
    (h : member ∈ setMember members name value) :
    member ∈ members ∨ member = (name, value) := by
  rw [setMember] at h
  split_ifs at h
  · obtain ⟨old, hold, rfl⟩ := List.mem_map.mp h
    split_ifs
    · exact Or.inr rfl
    · exact Or.inl hold
  · simpa using h

/-- The members of an object after its loop: each name once, under a value that
was read for some name. -/
theorem foldl_setEntry_members (read : List (PyStr × PyVal)) :
    ∀ members : List (PyStr × PyVal), (members.map Prod.fst).Nodup →
      ∃ result : List (PyStr × PyVal),
        read.foldl (fun entries member => setEntry entries member.1 member.2)
          (objectEntries members) = objectEntries result ∧
        (result.map Prod.fst).Nodup ∧
        ∀ member ∈ result, member ∈ members ∨ member ∈ read := by
  induction read with
  | nil => exact fun members hdistinct =>
      ⟨members, rfl, hdistinct, fun _ hmember => Or.inl hmember⟩
  | cons first rest ih =>
      intro members hdistinct
      have hnext : ((setMember members first.1 first.2).map Prod.fst).Nodup := by
        rw [setMember_names]
        split_ifs with hname
        · exact hdistinct
        · exact List.nodup_append.mpr ⟨hdistinct, List.nodup_singleton _, by
            intro found hfound other hother
            rw [List.mem_singleton] at hother
            rw [hother]
            exact fun heq => hname (heq ▸ hfound)⟩
      obtain ⟨result, hresult, hnodup, hmem⟩ := ih _ hnext
      refine ⟨result, ?_, hnodup, fun member hmember => ?_⟩
      · rw [List.foldl_cons, setEntry_objectEntries, hresult]
      · rcases hmem member hmember with hold | hread
        · rcases mem_setMember hold with hold | rfl
          · exact Or.inl hold
          · exact Or.inr List.mem_cons_self
        · exact Or.inr (List.mem_cons_of_mem _ hread)

theorem digitsValue_snoc (digits : PyStr) (c : PyChar) :
    PyDecimal.digitsValue (digits ++ [c]) =
      10 * PyDecimal.digitsValue digits + (c.val - 0x30) := by
  rw [PyDecimal.digitsValue, List.foldl_append]
  rfl

theorem digitsValue_lt {digits : PyStr}
    (h : ∀ c ∈ digits, PyDecimal.isDigit c = true) :
    PyDecimal.digitsValue digits < 10 ^ digits.length := by
  induction digits using List.reverseRecOn with
  | nil => decide
  | append_singleton digits c ih =>
      have hinit := ih fun d hd => h d (List.mem_append_left _ hd)
      have hlast := of_decide_eq_true (h c (List.mem_append_right _ (by simp)))
      rw [digitsValue_snoc, List.length_append, List.length_singleton, pow_succ]
      omega

theorem wholeDigits_digits (text : PyStr) :
    ∀ c ∈ wholeDigits text, PyDecimal.isDigit c = true := by
  cases text with
  | nil => simp [wholeDigits]
  | cons first rest =>
      intro c hc
      rw [wholeDigits] at hc
      split_ifs at hc with hzero
      · rw [List.mem_singleton.mp hc, PyDecimal.isDigit]
        exact decide_eq_true (by omega)
      · exact List.mem_takeWhile_imp hc

/-- An integer that is read within the digit limit prints within it. -/
theorem intLiteral_printable {negative : Bool} {digits : PyStr} {value : PyVal}
    (hdigits : ∀ c ∈ digits, PyDecimal.isDigit c = true)
    (h : intLiteral negative digits = .ok value) :
    ∃ n, value = .int n ∧ Printable n := by
  obtain ⟨hlimit, h⟩ := guard_eq_ok.mp h
  refine ⟨_, (Except.ok.inj h).symm, ?_⟩
  have habs : (if negative then -(PyDecimal.digitsValue digits : ℤ)
      else PyDecimal.digitsValue digits).natAbs = PyDecimal.digitsValue digits := by
    split_ifs <;> omega
  have hlength : digits.length ≤ intMaxStrDigits := not_lt.mp hlimit
  have hvalue : PyDecimal.digitsValue digits < 10 ^ intMaxStrDigits :=
    (digitsValue_lt hdigits).trans_le (Nat.pow_le_pow_right (by omega) hlength)
  rw [Printable, habs, natText_eq_map, List.length_map,
    Nat.length_toDigits_le_iff (by omega) (by decide)]
  exact hvalue

section Parsing

variable {interp : Interpreter} {isText good : PyStr → Prop}

/-- On good texts a scanner yields a property, and leaves a good text behind. -/
def YieldsOn {α : Type} (good : PyStr → Prop) (property : α → Prop)
    (scanner : Scanner α) : Prop :=
  ∀ text value rest, good text → scanner text = .ok (value, rest) →
    property value ∧ good rest

theorem scanScalar_parsed (hsuffix : ∀ {s t}, s <:+ t → good t → good s)
    (depth : ℕ) :
    YieldsOn good (Parsed interp isText depth) (scanScalar interp) := by
  intro text value rest hgood h
  refine ⟨?_, hsuffix (scanScalar_suffix interp _ _ _ h) hgood⟩
  rw [scanScalar] at h
  split at h
  next literal hliteral =>
    cases h
    have hmem := List.mem_of_find?_eq_some hliteral
    simp only [literals, List.mem_cons, List.not_mem_nil, or_false] at hmem
    rcases hmem with rfl | rfl | rfl | rfl | rfl | rfl
    · exact .pyNone
    · exact .bool _
    · exact .bool _
    · exact .float false fun q hq => by cases hq
    · exact .float false fun q hq => by cases hq
    · exact .float false fun q hq => by cases hq
  next =>
    rw [scanNumber] at h
    obtain ⟨_, h⟩ := guard_eq_ok.mp h
    split at h
    · cases h
      exact .float _ (toFloat_inRange _)
    · split_ifs at h
      · obtain ⟨number, hnumber, h⟩ := bind_eq_ok.mp h
        obtain ⟨n, rfl, hprintable⟩ :=
          intLiteral_printable (wholeDigits_digits _) hnumber
        cases h
        exact .int hprintable
      · cases h
        exact .float _ (toFloat_inRange _)

theorem scanElements_yieldsOn {α : Type} {element : Scanner α} {property : α → Prop}
    (hsuffix : ∀ {s t}, s <:+ t → good t → good s)
    (helement : YieldsOn good property element) (close : ℕ) (missing : PyExc)
    (fuel : ℕ) :
    YieldsOn good (fun items => ∀ item ∈ items, property item)
      (scanElements element close missing fuel) := by
  intro text items rest hgood h
  induction fuel generalizing text items with
  | zero => cases h
  | succ fuel ih =>
      rw [scanElements] at h
      obtain ⟨⟨item, after⟩, hitem, h⟩ := bind_eq_ok.mp h
      obtain ⟨hfirst, hafter⟩ := helement _ _ _ hgood hitem
      simp only at h
      split at h
      · cases h
      next c tail htail =>
        have hskip : c :: tail <:+ after := htail ▸ skipBlanks_suffix after
        have hgoodTail : good tail :=
          hsuffix ((List.suffix_cons c tail).trans hskip) hafter
        split_ifs at h with hclose hcomma
        · cases h
          exact ⟨List.forall_mem_singleton.mpr hfirst, hgoodTail⟩
        · obtain ⟨⟨more, last⟩, hmore, h⟩ := bind_eq_ok.mp h
          cases h
          obtain ⟨hitems, hlast⟩ :=
            ih _ _ (hsuffix (skipBlanks_suffix tail) hgoodTail) hmore
          exact ⟨List.forall_mem_cons.mpr ⟨hfirst, hitems⟩, hlast⟩

variable (hsuffix : ∀ {s t}, s <:+ t → good t → good s)
  (hstring : ∀ fuel, YieldsOn good isText (scanString fuel))

include hsuffix hstring

theorem scanMember_yieldsOn {inner : Scanner PyVal} {property : PyVal → Prop}
    (hinner : YieldsOn good property inner) :
    YieldsOn good (fun member => isText member.1 ∧ property member.2)
      (scanMember inner) := by
  intro text member rest hgood h
  cases text with
  | nil => cases h
  | cons c tail =>
      rw [scanMember] at h
      split_ifs at h with hquote
      obtain ⟨⟨name, after⟩, hname, h⟩ := bind_eq_ok.mp h
      obtain ⟨htext, hafter⟩ :=
        hstring _ _ _ _ (hsuffix (List.suffix_cons c tail) hgood) hname
      simp only at h
      split at h
      · cases h
      next colon behind hbehind =>
        have hskip : colon :: behind <:+ after := hbehind ▸ skipBlanks_suffix after
        split_ifs at h with hcolon
        obtain ⟨⟨value, last⟩, hvalue, h⟩ := bind_eq_ok.mp h
        cases h
        obtain ⟨hproperty, hlast⟩ := hinner _ _ _
          (hsuffix ((skipBlanks_suffix behind).trans
            ((List.suffix_cons colon behind).trans hskip)) hafter) hvalue
        exact ⟨⟨htext, hproperty⟩, hlast⟩

theorem scanWith_parsed {depth : ℕ} {nested : Option (Scanner PyVal)}
    (hnested : ∀ inner ∈ nested, ∃ below, depth = below + 1 ∧
      YieldsOn good (Parsed interp isText below) inner) :
    YieldsOn good (Parsed interp isText depth) (scanWith interp nested) := by
  intro text value rest hgood h
  cases text with
  | nil => cases h
  | cons c tail =>
      have htail : good tail := hsuffix (List.suffix_cons c tail) hgood
      have hskip := hsuffix (skipBlanks_suffix tail) htail
      have hclosed := hsuffix (List.tail_suffix (skipBlanks tail)) hskip
      rw [scanWith] at h
      split_ifs at h with hquote harray hobject
      · obtain ⟨⟨chars, last⟩, hchars, h⟩ := bind_eq_ok.mp h
        cases h
        obtain ⟨htext, hlast⟩ := hstring _ _ _ _ htail hchars
        exact ⟨.str htext, hlast⟩
      · cases nested with
        | none => cases h
        | some inner =>
            obtain ⟨below, rfl, hinner⟩ := hnested inner rfl
            simp only [scanNested, scanArray] at h
            split_ifs at h
            · cases h
              exact ⟨.list (List.forall_mem_nil _), hclosed⟩
            · obtain ⟨⟨items, last⟩, hitems, h⟩ := bind_eq_ok.mp h
              cases h
              obtain ⟨hall, hlast⟩ :=
                scanElements_yieldsOn hsuffix hinner _ _ _ _ _ _ hskip hitems
              exact ⟨.list hall, hlast⟩
      · cases nested with
        | none => cases h
        | some inner =>
            obtain ⟨below, rfl, hinner⟩ := hnested inner rfl
            simp only [scanNested, scanObject] at h
            split_ifs at h
            · cases h
              exact ⟨@Parsed.dict interp isText below [] .nil (List.forall_mem_nil _)
                (List.forall_mem_nil _), hclosed⟩
            · obtain ⟨⟨members, last⟩, hmembers, h⟩ := bind_eq_ok.mp h
              cases h
              obtain ⟨hall, hlast⟩ := scanElements_yieldsOn hsuffix
                (scanMember_yieldsOn hsuffix hstring hinner) _ _ _ _ _ _ hskip
                hmembers
              obtain ⟨result, hresult, hdistinct, hmem⟩ :=
                foldl_setEntry_members members [] .nil
              have hread : ∀ member ∈ result, member ∈ members := fun member hmember =>
                (hmem member hmember).resolve_left List.not_mem_nil
              refine ⟨?_, hlast⟩
              rw [show ([] : PyDict) = objectEntries [] from rfl, hresult]
              exact .dict hdistinct (fun member hmember =>
                (hall member (hread member hmember)).1) fun member hmember =>
                  (hall member (hread member hmember)).2
      · exact scanScalar_parsed hsuffix depth _ _ _ hgood h

theorem scanValue_parsed (depth : ℕ) :
    YieldsOn good (Parsed interp isText depth) (scanValue interp depth) := by
  induction depth with
  | zero =>
      apply scanWith_parsed hsuffix hstring
      intro inner hinner
      cases hinner
  | succ depth ih =>
      apply scanWith_parsed hsuffix hstring
      intro inner hinner
      cases hinner
      exact ⟨depth, rfl, ih⟩

theorem loads_parsed_of {text : PyStr} {value : PyVal} (hgood : good text)
    (h : loads interp text = .ok value) :
    Parsed interp isText interp.depth value := by
  obtain ⟨_, h⟩ := guard_eq_ok.mp h
  obtain ⟨⟨found, rest⟩, hscan, h⟩ := bind_eq_ok.mp h
  simp only at h
  split_ifs at h
  cases h
  exact (scanValue_parsed hsuffix hstring _ _ _ _
    (hsuffix (skipBlanks_suffix text) hgood) hscan).1

end Parsing

theorem loads_parsed {interp : Interpreter} {text : PyStr} {value : PyVal}
    (h : loads interp text = .ok value) :
    Parsed interp (fun _ => True) interp.depth value :=
  @loads_parsed_of interp _ (fun _ => True) (fun _ _ => trivial)
    (fun _ _ _ _ _ _ => ⟨trivial, trivial⟩) text value trivial h

theorem loads_unpaired {interp : Interpreter} {text : PyStr} {value : PyVal}
    (hunicode : isUnicode text = true) (h : loads interp text = .ok value) :
    Parsed interp Unpaired interp.depth value := by
  refine @loads_parsed_of interp _ (fun s => isUnicode s = true) isUnicode_of_suffix
    ?_ text value hunicode h
  intro fuel text chars rest hgood hscan
  exact ⟨scanString_unpaired hgood hscan,
    isUnicode_of_suffix (scanString_suffix fuel _ _ _ hscan) hgood⟩

end PyJson

end QwedA2A
