/-
The Python values the gateway handles: text as code points, numbers with the
float specials, the JSON-like objects of a payload, and raised exceptions.
Everything later is stated over these types.
-/
import Mathlib.Order.WithBot
import Mathlib.Data.Rat.Defs
import Mathlib.Algebra.Order.Ring.Rat
import Mathlib.Tactic

namespace QwedA2A

/-- A character of a Python string.  Lone surrogates are ordinary characters
here, as they are for the interpreter. -/
abbrev PyChar := Fin 0x110000

instance PyChar.neZero : NeZero 0x110000 := ⟨by decide⟩

/-- A Python `str`. -/
abbrev PyStr := List PyChar

instance PyStr.lawfulBEq : LawfulBEq PyStr := inferInstance

def PyChar.ofChar (c : Char) : PyChar := ⟨c.toNat, by
  rcases c.valid with h | h <;>
    simp only [Char.toNat, UInt32.toNat] at * <;> omega⟩

def py (s : String) : PyStr := s.toList.map PyChar.ofChar

/-- `str.isspace` on one character: the separators that `strip` and `split`
remove. -/
def PyChar.isSpace (c : PyChar) : Bool :=
  let n := c.val
  (9 ≤ n && n ≤ 13) || (28 ≤ n && n ≤ 32) || n == 0x85 || n == 0xA0 ||
    n == 0x1680 || (0x2000 ≤ n && n ≤ 0x200A) || n == 0x2028 ||
    n == 0x2029 || n == 0x202F || n == 0x205F || n == 0x3000

/-- `str.strip()`. -/
def strip (s : PyStr) : PyStr :=
  ((s.dropWhile PyChar.isSpace).reverse.dropWhile PyChar.isSpace).reverse

/-- `str.lower` on one ASCII character. -/
def lowerAscii (c : PyChar) : PyChar :=
  if 0x41 ≤ c.val ∧ c.val ≤ 0x5A then Fin.ofNat _ (c.val + 0x20) else c

/-- `str.split()`: the maximal runs without white space. -/
def splitWords (s : PyStr) : List PyStr :=
  (s.splitOnP PyChar.isSpace).filter fun word => !word.isEmpty

def isUnicode (s : PyStr) : Bool :=
  s.all fun c => c.val < 0xD800 || 0xDFFF < c.val

/-- Text of ASCII characters. -/
def IsAscii (s : PyStr) : Prop := ∀ c ∈ s, c.val < 0x80

instance (s : PyStr) : Decidable (IsAscii s) :=
  List.decidableBAll (fun c : PyChar => c.val < 0x80) s

def natText (n : ℕ) : PyStr := py (toString n)

/-- `str` of an integer, before the interpreter's digit limit is applied. -/
def intText (n : ℤ) : PyStr :=
  if n < 0 then py "-" ++ natText n.natAbs else natText n.natAbs

/-- `", ".join(parts)` for a given separator. -/
def joinWith (sep : PyStr) : List PyStr → PyStr
  | [] => []
  | [part] => part
  | part :: rest => part ++ sep ++ joinWith sep rest

/-- A Python number as comparisons see it: an extended rational, or NaN. -/
inductive PyNum where
  | real (x : WithBot (WithTop ℚ))
  | nan
deriving DecidableEq

namespace PyNum

def rat (q : ℚ) : PyNum := .real ((q : WithTop ℚ) : WithBot (WithTop ℚ))

/-- `float("inf")`. -/
def inf : PyNum := .real ((⊤ : WithTop ℚ) : WithBot (WithTop ℚ))

/-- Python's `<=`: false as soon as one side is NaN. -/
instance : LE PyNum where
  le a b := match a, b with
    | .real x, .real y => x ≤ y
    | _, _ => False

/-- Python's `<`. -/
instance : LT PyNum where
  lt a b := match a, b with
    | .real x, .real y => x < y
    | _, _ => False

@[simp] theorem real_le_real {x y : WithBot (WithTop ℚ)} :
    (PyNum.real x ≤ PyNum.real y) ↔ x ≤ y := Iff.rfl

@[simp] theorem real_lt_real {x y : WithBot (WithTop ℚ)} :
    (PyNum.real x < PyNum.real y) ↔ x < y := Iff.rfl

@[simp] theorem not_nan_le (a : PyNum) : ¬ PyNum.nan ≤ a := by
  cases a <;> exact id

@[simp] theorem not_le_nan (a : PyNum) : ¬ a ≤ PyNum.nan := by
  cases a <;> exact id

@[simp] theorem not_nan_lt (a : PyNum) : ¬ PyNum.nan < a := by
  cases a <;> exact id

@[simp] theorem not_lt_nan (a : PyNum) : ¬ a < PyNum.nan := by
  cases a <;> exact id

@[simp] theorem rat_le_rat {a b : ℚ} : rat a ≤ rat b ↔ a ≤ b := by
  simp [rat]

@[simp] theorem rat_lt_rat {a b : ℚ} : rat a < rat b ↔ a < b := by
  simp [rat]

instance (a b : PyNum) : Decidable (a ≤ b) :=
  match a, b with
  | .real x, .real y => inferInstanceAs (Decidable (x ≤ y))
  | .nan, b => isFalse (not_nan_le b)
  | .real x, .nan => isFalse (not_le_nan (.real x))

instance (a b : PyNum) : Decidable (a < b) :=
  match a, b with
  | .real x, .real y => inferInstanceAs (Decidable (x < y))
  | .nan, b => isFalse (not_nan_lt b)
  | .real x, .nan => isFalse (not_lt_nan (.real x))

theorem le_trans {a b c : PyNum} (hab : a ≤ b) (hbc : b ≤ c) : a ≤ c := by
  cases a <;> cases b <;> cases c <;> simp_all
  exact hab.trans hbc

theorem lt_of_lt_of_le {a b c : PyNum} (hab : a < b) (hbc : b ≤ c) : a < c := by
  cases a <;> cases b <;> cases c <;> simp_all
  exact hab.trans_le hbc

theorem lt_of_le_of_lt {a b c : PyNum} (hab : a ≤ b) (hbc : b < c) : a < c := by
  cases a <;> cases b <;> cases c <;> simp_all
  exact hab.trans_lt hbc

theorem le_of_lt {a b : PyNum} (hab : a < b) : a ≤ b := by
  cases a <;> cases b <;> simp_all
  exact hab.le

theorem not_le_of_lt {a b : PyNum} (hab : a < b) : ¬ b ≤ a := by
  cases a <;> cases b <;> simp_all

/-- A number that is not NaN is above whatever it is not at or below. -/
theorem lt_of_not_le {a : PyNum} {q : ℚ} (ha : a ≠ .nan) (h : ¬ a ≤ rat q) :
    rat q < a := by
  cases a with
  | real x => exact real_lt_real.mpr (not_le.mp h)
  | nan => exact absurd rfl ha

end PyNum

/-- The objects found in a payload or in decoded JSON.  A float carries its
value and its `repr`; an object of any other type is known by its `str`. -/
inductive PyVal where
  | pyNone
  | bool (b : Bool)
  | int (n : ℤ)
  | float (value : PyNum) (repr : PyStr)
  | str (s : PyStr)
  | list (items : List PyVal)
  | dict (entries : List (PyVal × PyVal))
  | other (text : PyStr)

/-- A `dict` in insertion order. -/
abbrev PyDict := List (PyVal × PyVal)

/-- `d.get(key)` for a string key; `none` when the key is absent. -/
def dictGet (d : PyDict) (key : PyStr) : Option PyVal :=
  d.findSome? fun entry =>
    match entry.1 with
    | .str s => if s = key then some entry.2 else none
    | _ => none

@[simp] theorem dictGet_nil (key : PyStr) : dictGet [] key = none := rfl

@[simp] theorem dictGet_cons_str (name : PyStr) (value : PyVal) (rest : PyDict)
    (key : PyStr) :
    dictGet ((.str name, value) :: rest) key =
      if name = key then some value else dictGet rest key := by
  by_cases h : name = key <;> simp [dictGet, h]

theorem mem_of_dictGet {d : PyDict} {key : PyStr} {value : PyVal}
    (h : dictGet d key = some value) : (.str key, value) ∈ d := by
  obtain ⟨⟨name, found⟩, hmem, hentry⟩ := List.exists_of_findSome?_eq_some h
  cases name with
  | str s =>
      simp only [Option.ite_none_right_eq_some, Option.some.injEq] at hentry
      obtain ⟨rfl, rfl⟩ := hentry
      exact hmem
  | _ => cases hentry

/-- `bool(value)`; an object of another type counts as true. -/
def PyVal.truthy : PyVal → Bool
  | .pyNone => false
  | .bool b => b
  | .int n => decide (n ≠ 0)
  | .float value _ => decide (value ≠ .rat 0)
  | .str s => !s.isEmpty
  | .list items => !items.isEmpty
  | .dict entries => !entries.isEmpty
  | .other _ => true

/-- Exception classes the gateway's code raises or distinguishes. -/
inductive ExcType where
  | valueError
  | typeError
  | runtimeError
  | overflowError
  | recursionError
  | timeoutError
  | syntaxError
  | jsonDecodeError
  | invalidOperation
  | decimalOverflow
  | other (name : PyStr)
deriving DecidableEq

/-- `type(exc).__name__`. -/
def ExcType.name : ExcType → PyStr
  | .valueError => py "ValueError"
  | .typeError => py "TypeError"
  | .runtimeError => py "RuntimeError"
  | .overflowError => py "OverflowError"
  | .recursionError => py "RecursionError"
  | .timeoutError => py "TimeoutError"
  | .syntaxError => py "SyntaxError"
  | .jsonDecodeError => py "JSONDecodeError"
  | .invalidOperation => py "InvalidOperation"
  | .decimalOverflow => py "Overflow"
  | .other name => name

/-- A raised exception. -/
structure PyExc where
  type : ExcType
  message : PyStr := []
deriving DecidableEq

section Raising

variable {ε ρ α β : Type}

@[simp] theorem ok_bind (a : α) (f : α → Except ε β) :
    ((Except.ok a : Except ε α) >>= f) = f a := rfl

@[simp] theorem error_bind (e : ε) (f : α → Except ε β) :
    ((Except.error e : Except ε α) >>= f) = .error e := rfl

theorem bind_eq_ok {x : Except ε α} {f : α → Except ε β} {b : β} :
    (x >>= f) = .ok b ↔ ∃ a, x = .ok a ∧ f a = .ok b := by
  cases x with
  | error e => simp
  | ok a => simp

/-- A step that returns one value under one condition, and then what is made of
that value. -/
theorem bind_ok_iff {x : Except ε α} {p : Prop} {a : α}
    (h : ∀ a', x = .ok a' ↔ p ∧ a' = a) (f : α → β) (b : β) :
    (x >>= fun a' => .ok (f a')) = .ok b ↔ p ∧ b = f a := by
  rw [bind_eq_ok]
  constructor
  · rintro ⟨a', ha', hb⟩
    obtain ⟨hp, rfl⟩ := (h a').mp ha'
    cases hb
    exact ⟨hp, rfl⟩
  · rintro ⟨hp, rfl⟩
    exact ⟨a, (h a).mpr ⟨hp, rfl⟩, rfl⟩

/-- A sequence raises what the first of its steps to raise does. -/
theorem bind_eq_error {x : Except ε α} {f : α → Except ε β} {e : ε} :
    (x >>= f) = .error e ↔ x = .error e ∨ ∃ a, x = .ok a ∧ f a = .error e := by
  cases x with
  | error e' => simp
  | ok a => simp

/-- A step that raises only exceptions of one kind. -/
def RaisesOnly (kind : ε → Prop) (step : Except ε α) : Prop :=
  ∀ e, step = .error e → kind e

theorem RaisesOnly.ok {kind : ε → Prop} (a : α) :
    RaisesOnly kind (.ok a : Except ε α) := fun _ h => by cases h

theorem RaisesOnly.error {kind : ε → Prop} {e : ε} (h : kind e) :
    RaisesOnly kind (.error e : Except ε α) := by
  intro e' he
  cases he
  exact h

theorem RaisesOnly.bind {kind : ε → Prop} {step : Except ε α}
    {next : α → Except ε β} (hstep : RaisesOnly kind step)
    (hnext : ∀ a, step = .ok a → RaisesOnly kind (next a)) :
    RaisesOnly kind (step >>= next) := by
  intro e h
  rcases bind_eq_error.mp h with h | ⟨a, ha, h⟩
  · exact hstep e h
  · exact hnext a ha e h

/-- Sequences with the same first step agree when they agree on its results. -/
theorem bind_congr_ok {x : Except ε α} {f g : α → Except ε β}
    (h : ∀ a, x = .ok a → f a = g a) : (x >>= f) = (x >>= g) := by
  cases x with
  | error e => rfl
  | ok a => exact h a rfl

variable {p : Prop} [Decidable p] {a : α}

/-- A guard that raises is passed when its condition is false. -/
theorem guard_eq_ok {e : ε} {x : Except ε α} :
    (if p then .error e else x) = .ok a ↔ ¬ p ∧ x = .ok a := by
  by_cases h : p <;> simp [h]

theorem guard_eq_error {e found : ε} {x : Except ε α} :
    (if p then .error e else x) = .error found ↔
      p ∧ e = found ∨ ¬ p ∧ x = .error found := by
  by_cases h : p <;> simp [h]

/-- A check that returns a refusal is passed when its condition is false. -/
theorem refusal_eq_ok {reason : ρ} {x : Except ε (Except ρ α)} :
    (if p then .ok (.error reason) else x) = .ok (.ok a) ↔
      ¬ p ∧ x = .ok (.ok a) := by
  by_cases h : p <;> simp [h]

theorem mapM_ok_iff {f : α → Except ε β} {entries : List α}
    {items : List β} :
    entries.mapM f = .ok items ↔
      List.Forall₂ (fun entry item => f entry = .ok item) entries items := by
  induction entries generalizing items with
  | nil =>
      rw [List.mapM_nil]
      constructor
      · intro h
        cases h
        exact List.Forall₂.nil
      · intro h
        cases h
        rfl
  | cons entry rest ih =>
      rw [List.mapM_cons, bind_eq_ok]
      constructor
      · rintro ⟨item, hitem, h⟩
        obtain ⟨others, hothers, h⟩ := bind_eq_ok.mp h
        cases h
        exact List.Forall₂.cons hitem (ih.mp hothers)
      · intro h
        cases h with
        | cons hitem hrest =>
            exact ⟨_, hitem, bind_eq_ok.mpr ⟨_, ih.mpr hrest, rfl⟩⟩

theorem mapM_error {f : α → Except ε β} {entries : List α} {e : ε}
    (h : entries.mapM f = .error e) : ∃ entry ∈ entries, f entry = .error e := by
  induction entries with
  | nil => cases h
  | cons entry rest ih =>
      rw [List.mapM_cons] at h
      rcases bind_eq_error.mp h with hentry | ⟨item, _, h⟩
      · exact ⟨entry, List.mem_cons_self, hentry⟩
      · rcases bind_eq_error.mp h with hrest | ⟨items, _, h⟩
        · obtain ⟨later, hmem, hlater⟩ := ih hrest
          exact ⟨later, List.mem_cons_of_mem _ hmem, hlater⟩
        · cases h

theorem RaisesOnly.mapM {kind : ε → Prop} {f : α → Except ε β}
    {entries : List α} (h : ∀ entry ∈ entries, RaisesOnly kind (f entry)) :
    RaisesOnly kind (entries.mapM f) := by
  intro e he
  obtain ⟨entry, hmem, hentry⟩ := mapM_error he
  exact h entry hmem e hentry

end Raising

/-- Decimal digits beyond which `str(int)` and `int(str)` raise ValueError. -/
def intMaxStrDigits : ℕ := 4300

/-- `str(n)` of an integer, under the interpreter's digit limit. -/
def intRepr (n : ℤ) : Except PyExc PyStr :=
  if (natText n.natAbs).length ≤ intMaxStrDigits then .ok (intText n)
  else .error ⟨.valueError, py "Exceeds the limit (4300 digits) for integer string conversion; use sys.set_int_max_str_digits() to increase the limit"⟩

/-- `str(value)` for the scalars; a container's text starts with a bracket
and is never numeric, so it is left out. -/
def PyVal.scalarText : PyVal → Except PyExc (Option PyStr)
  | .pyNone => .ok (some (py "None"))
  | .bool true => .ok (some (py "True"))
  | .bool false => .ok (some (py "False"))
  | .int n => (intRepr n).map some
  | .float _ repr => .ok (some repr)
  | .str s => .ok (some s)
  | .list _ => .ok none
  | .dict _ => .ok none
  | .other text => .ok (some text)

end QwedA2A
