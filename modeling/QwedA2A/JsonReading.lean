/-
The rendering of a written value can be read in one way only.  Strings are read
escape by escape, numbers up to the first character that is none of theirs,
arrays and objects item by item.
-/
import QwedA2A.CanonicalJson

namespace QwedA2A

open UniqueReading

namespace PyJson

def hexValue (c : PyChar) : ℕ := if c.val < 0x57 then c.val - 0x30 else c.val - 0x57

theorem hexValue_hexDigit (n : ℕ) : hexValue (hexDigit n) = n % 16 := by
  rw [hexDigit]
  split_ifs with hdigit
  · have hval : (Fin.ofNat 0x110000 (0x30 + n % 16)).val = 0x30 + n % 16 :=
      Nat.mod_eq_of_lt (by omega)
    rw [hexValue, hval, if_pos (by omega)]
    omega
  · have hlt : n % 16 < 16 := Nat.mod_lt n (by omega)
    have hval : (Fin.ofNat 0x110000 (0x57 + n % 16)).val = 0x57 + n % 16 :=
      Nat.mod_eq_of_lt (by omega)
    rw [hexValue, hval, if_neg (by omega)]
    omega

def shortEscape (c : PyChar) : PyChar :=
  if c.val = 0x6E then 0x0A
  else if c.val = 0x72 then 0x0D
  else if c.val = 0x74 then 0x09
  else if c.val = 0x66 then 0x0C
  else if c.val = 0x62 then 0x08
  else c

def readUnit : PyStr → Option (PyChar × PyStr)
  | [] => none
  | c :: rest =>
      if c.val ≠ 0x5C then some (c, rest)
      else
        match rest with
        | [] => none
        | kind :: rest =>
            if kind.val ≠ 0x75 then some (shortEscape kind, rest)
            else
              match rest with
              | a :: b :: c :: d :: rest =>
                  some (Fin.ofNat _ (hexValue a * 4096 + hexValue b * 256 +
                    hexValue c * 16 + hexValue d), rest)
              | _ => none

theorem readUnit_plain {c : PyChar} (hslash : c.val ≠ 0x5C) (rest : PyStr) :
    readUnit (c :: rest) = some (c, rest) :=
  if_pos hslash

theorem readUnit_shortEscape {kind : PyChar} (hkind : kind.val ≠ 0x75)
    (rest : PyStr) :
    readUnit (0x5C :: kind :: rest) = some (shortEscape kind, rest) := by
  change (if kind.val ≠ 0x75 then some (shortEscape kind, rest) else _) = _
  exact if_pos hkind

theorem readUnit_unicodeEscape {c : PyChar} (hbmp : c.val < 0x10000)
    (rest : PyStr) :
    readUnit (unicodeEscape c.val ++ rest) = some (c, rest) := by
  have hread : readUnit (unicodeEscape c.val ++ rest) =
      some (Fin.ofNat _ (hexValue (hexDigit (c.val / 4096)) * 4096 +
        hexValue (hexDigit (c.val / 256)) * 256 +
        hexValue (hexDigit (c.val / 16)) * 16 + hexValue (hexDigit c.val)),
        rest) := rfl
  rw [hread]
  simp only [hexValue_hexDigit]
  have hsum : c.val / 4096 % 16 * 4096 + c.val / 256 % 16 * 256 +
      c.val / 16 % 16 * 16 + c.val % 16 = c.val := by omega
  rw [hsum, Fin.ofNat_val_eq_self]

/-- The escape of a code unit and what the reader makes of it: the shape of the
text first, then the character. -/
theorem escapeChar_cases {c : PyChar} (hbmp : c.val < 0x10000) :
    (∃ kind : PyChar, kind.val ≠ 0x75 ∧ kind.val < 0x80 ∧ shortEscape kind = c ∧
      escapeChar true c = [0x5C, kind]) ∨
    (c.val ≠ 0x22 ∧ c.val ≠ 0x5C ∧ c.val < 0x80 ∧ escapeChar true c = [c]) ∨
    escapeChar true c = unicodeEscape c.val := by
  -- One copy of the text, so that its cases are split once.
  generalize htext : escapeChar true c = text
  rw [escapeChar] at htext
  split_ifs at htext with hquote hslash hn hr ht hf hb hcontrol hplain
  · exact Or.inl ⟨0x22, by decide, by decide, Fin.ext hquote.symm, htext.symm⟩
  · exact Or.inl ⟨0x5C, by decide, by decide, Fin.ext hslash.symm, htext.symm⟩
  · exact Or.inl ⟨0x6E, by decide, by decide, Fin.ext hn.symm, htext.symm⟩
  · exact Or.inl ⟨0x72, by decide, by decide, Fin.ext hr.symm, htext.symm⟩
  · exact Or.inl ⟨0x74, by decide, by decide, Fin.ext ht.symm, htext.symm⟩
  · exact Or.inl ⟨0x66, by decide, by decide, Fin.ext hf.symm, htext.symm⟩
  · exact Or.inl ⟨0x62, by decide, by decide, Fin.ext hb.symm, htext.symm⟩
  · exact Or.inr (Or.inr htext.symm)
  · have hascii : c.val < 0x80 := by
      simp only [Bool.not_true, Bool.false_or, decide_eq_true_eq] at hplain
      omega
    exact Or.inr (Or.inl ⟨hquote, hslash, hascii, htext.symm⟩)
  · exact Or.inr (Or.inr htext.symm)

theorem readUnit_escapeChar (c : PyChar) (rest : PyStr) (hbmp : c.val < 0x10000) :
    readUnit (escapeChar true c ++ rest) = some (c, rest) := by
  rcases escapeChar_cases hbmp with ⟨kind, hkind, _, hshort, htext⟩ |
    ⟨_, hslash, _, htext⟩ | htext
  · rw [htext, ← hshort]
    exact readUnit_shortEscape hkind rest
  · rw [htext]
    exact readUnit_plain hslash rest
  · rw [htext]
    exact readUnit_unicodeEscape hbmp rest

theorem escapeChar_head {c : PyChar} (hbmp : c.val < 0x10000) :
    ∃ first rest, escapeChar true c = first :: rest ∧ first ≠ 0x22 := by
  rcases escapeChar_cases hbmp with ⟨kind, _, _, _, htext⟩ | ⟨hquote, _, _, htext⟩ |
    htext
  · exact ⟨0x5C, [kind], htext, by decide⟩
  · exact ⟨c, [], htext, fun heq => hquote (by rw [heq]; rfl)⟩
  · exact ⟨0x5C, _, htext, by decide⟩

/-- All characters are code units. -/
def IsUnits (s : PyStr) : Prop := ∀ c ∈ s, c.val < 0x10000

theorem units_isUnits (s : PyStr) : IsUnits (units s) := by
  intro c hc
  obtain ⟨d, _, hd⟩ := List.mem_flatMap.mp hc
  have hlt := d.isLt
  have hval : ∀ n, n < 0x110000 → (Fin.ofNat 0x110000 n).val = n :=
    fun n hn => Nat.mod_eq_of_lt hn
  rw [charUnits] at hd
  split_ifs at hd with hbmp
  · rw [List.mem_singleton] at hd
    rw [hd]
    exact hbmp
  · simp only [List.mem_cons, List.not_mem_nil, or_false] at hd
    rcases hd with rfl | rfl
    · rw [hval _ (by omega)]
      omega
    · rw [hval _ (by omega)]
      omega

/-- Quoted code units are read up to the closing quote. -/
theorem quote_readsAs {s t : PyStr} (hs : IsUnits s) (ht : IsUnits t)
    (follow : PyStr → Prop) :
    ReadsAs (s = t) follow (quote true s) (quote true t) := by
  intro u v _ _ heq
  have hbody : s.flatMap (escapeChar true) ++ 0x22 :: u =
      t.flatMap (escapeChar true) ++ 0x22 :: v := by
    have hquotes : py "\"" = [0x22] := rfl
    simpa [quote, hquotes] using heq
  exact codes_injective readUnit_escapeChar (fun c hbmp => escapeChar_head hbmp)
    hs ht hbody

def isNumberChar (c : PyChar) : Bool :=
  (0x30 ≤ c.val && c.val ≤ 0x39) || c.val = 0x2D || c.val = 0x2B ||
    c.val = 0x2E || c.val = 0x65

/-- A text that does not go on with a character of a number. -/
def Stops (s : PyStr) : Prop := ∀ c ∈ s.head?, ¬ isNumberChar c = true

theorem natText_eq_map (n : ℕ) :
    natText n = (Nat.toDigits 10 n).map PyChar.ofChar := by
  rw [natText, py, ← Nat.toList_repr]
  rfl

theorem ofChar_injective : Function.Injective PyChar.ofChar := by
  intro c d h
  have hval : c.toNat = d.toNat := congrArg (fun e : PyChar => e.val) h
  exact Char.toNat_inj.mp hval

theorem natText_injective {m n : ℕ} (h : natText m = natText n) : m = n := by
  rw [natText_eq_map, natText_eq_map] at h
  have hdigits : Nat.toDigits 10 m = Nat.toDigits 10 n :=
    List.map_injective_iff.mpr ofChar_injective h
  have hvalue := congrArg (fun digits => Nat.ofDigitChars 10 digits 0) hdigits
  simpa only [Nat.ofDigitChars_ten_toDigits] using hvalue

def isDigitChar (c : PyChar) : Bool := 0x30 ≤ c.val && c.val ≤ 0x39

theorem isDigitChar_of_mem_natText {n : ℕ} {c : PyChar} (hc : c ∈ natText n) :
    isDigitChar c = true := by
  rw [natText_eq_map] at hc
  obtain ⟨d, hd, rfl⟩ := List.mem_map.mp hc
  have hdigit := Nat.isDigit_of_mem_toDigits (by omega) (by omega) hd
  simp only [Char.isDigit, Bool.and_eq_true, decide_eq_true_eq] at hdigit
  rw [isDigitChar, Bool.and_eq_true]
  exact ⟨decide_eq_true hdigit.1, decide_eq_true hdigit.2⟩

theorem natText_ne_nil (n : ℕ) : natText n ≠ [] := by
  rw [natText_eq_map]
  simp

theorem isNumberChar_of_isDigitChar {c : PyChar} (h : isDigitChar c = true) :
    isNumberChar c = true := by
  rw [isDigitChar] at h
  simp [isNumberChar, h]

/-- The text of an integer: digits, after a sign when it is negative. -/
theorem mem_intText {n : ℤ} {c : PyChar} (hc : c ∈ intText n) :
    isDigitChar c = true ∨ c = 0x2D := by
  rw [intText] at hc
  split_ifs at hc with hneg
  · rcases List.mem_append.mp hc with hsign | hdigits
    · exact Or.inr (List.mem_singleton.mp hsign)
    · exact Or.inl (isDigitChar_of_mem_natText hdigits)
  · exact Or.inl (isDigitChar_of_mem_natText hc)

theorem isNumberChar_of_mem_intText {n : ℤ} {c : PyChar} (hc : c ∈ intText n) :
    isNumberChar c = true := by
  rcases mem_intText hc with hdigit | rfl
  · exact isNumberChar_of_isDigitChar hdigit
  · decide

theorem intText_ne_nil (n : ℤ) : intText n ≠ [] := by
  rw [intText]
  split_ifs with hneg
  · simp [natText_ne_nil]
  · exact natText_ne_nil n.natAbs

/-- A sign tells the negative integers from the others. -/
theorem natText_ne_minus (m : ℕ) (rest : PyStr) : natText m ≠ py "-" ++ rest := by
  intro heq
  have hmem : (0x2D : PyChar) ∈ natText m := by
    rw [heq]
    exact List.mem_append_left _ (List.mem_singleton.mpr rfl)
  exact absurd (isDigitChar_of_mem_natText hmem) (by decide)

theorem intText_injective {m n : ℤ} (h : intText m = intText n) : m = n := by
  rw [intText, intText] at h
  split_ifs at h with hm hn hn
  · have habs := natText_injective (List.append_cancel_left h)
    omega
  · exact absurd h.symm (natText_ne_minus _ _)
  · exact absurd h (natText_ne_minus _ _)
  · have habs := natText_injective h
    omega

/-- What is relied on of `float.__repr__` on finite floats: it is read back as
the same value, it is written with the characters of numbers, and no integer is
written like it. -/
structure FloatRepr (isFloat : ℚ → PyStr → Prop) : Prop where
  injective : ∀ {x y repr}, isFloat x repr → isFloat y repr → x = y
  nonempty : ∀ {x repr}, isFloat x repr → repr ≠ []
  number : ∀ {x repr}, isFloat x repr → ∀ c ∈ repr, isNumberChar c = true
  not_int : ∀ {x repr}, isFloat x repr → ∀ n, repr ≠ intText n

/-- A rendered value: a JSON value whose texts are code units. -/
inductive Written (isFloat : ℚ → PyStr → Prop) : PyVal → Prop
  | pyNone : Written isFloat .pyNone
  | bool (b : Bool) : Written isFloat (.bool b)
  | int (n : ℤ) : Written isFloat (.int n)
  | float {x : ℚ} {repr : PyStr} (hfloat : isFloat x repr) :
      Written isFloat (.float (.rat x) repr)
  | str {s : PyStr} (hs : IsUnits s) : Written isFloat (.str s)
  | list {items : List PyVal} (hitems : ∀ item ∈ items, Written isFloat item) :
      Written isFloat (.list items)
  | dict {members : List (PyStr × PyVal)}
      (hnames : ∀ member ∈ members, IsUnits member.1)
      (hmembers : ∀ member ∈ members, Written isFloat member.2) :
      Written isFloat (.dict (objectEntries members))

section Reading

variable {isText : PyStr → Prop} {isFloat : ℚ → PyStr → Prop}

theorem written_written {value : PyVal} (h : JsonValue isText isFloat value) :
    Written isFloat (written value) := by
  induction h with
  | pyNone => exact .pyNone
  | bool b => exact .bool b
  | int n => exact .int n
  | float hfloat => exact .float hfloat
  | str htext => exact .str (units_isUnits _)
  | list hitems ih =>
      rw [written, writtenItems_eq_map]
      refine .list ?_
      intro item hitem
      obtain ⟨original, horiginal, rfl⟩ := List.mem_map.mp hitem
      exact ih original horiginal
  | dict hdistinct hnames hmembers ih =>
      rw [written_dict]
      refine .dict ?_ ?_
      · intro member hmember
        obtain ⟨original, _, rfl⟩ := List.mem_map.mp hmember
        exact units_isUnits original.1
      · intro member hmember
        obtain ⟨original, horiginal, rfl⟩ := List.mem_map.mp hmember
        exact ih original (mem_inKeyOrder.mp horiginal)

/-- What the first character of a text says of the value. -/
inductive Lead where
  | null
  | yes
  | no
  | number
  | string
  | array
  | object
deriving DecidableEq

def leadOfChar (c : PyChar) : Option Lead :=
  if c = 0x6E then some .null
  else if c = 0x74 then some .yes
  else if c = 0x66 then some .no
  else if c = 0x22 then some .string
  else if c = 0x5B then some .array
  else if c = 0x7B then some .object
  else if isNumberChar c then some .number
  else none

def lead : PyVal → Lead
  | .pyNone => .null
  | .bool true => .yes
  | .bool false => .no
  | .int _ => .number
  | .float _ _ => .number
  | .str _ => .string
  | .list _ => .array
  | .dict _ => .object
  | .other _ => .string

theorem leadOfChar_of_isNumberChar {c : PyChar} (h : isNumberChar c = true) :
    leadOfChar c = some .number := by
  have hnumber := h
  simp only [isNumberChar, Bool.or_eq_true, Bool.and_eq_true,
    decide_eq_true_eq] at h
  rw [leadOfChar]
  have hne : ∀ d : PyChar, (d.val < 0x2B ∨ 0x39 < d.val) → d.val ≠ 0x65 → c ≠ d := by
    rintro d hrange hd rfl
    omega
  rw [if_neg (hne _ (by decide) (by decide)), if_neg (hne _ (by decide) (by decide)),
    if_neg (hne _ (by decide) (by decide)), if_neg (hne _ (by decide) (by decide)),
    if_neg (hne _ (by decide) (by decide)), if_neg (hne _ (by decide) (by decide)),
    if_pos hnumber]

theorem number_head {text : PyStr} (hne : text ≠ [])
    (hnumber : ∀ c ∈ text, isNumberChar c = true) :
    ∃ c rest, text = c :: rest ∧ leadOfChar c = some .number := by
  obtain ⟨c, rest, rfl⟩ := List.exists_cons_of_ne_nil hne
  exact ⟨c, rest, rfl, leadOfChar_of_isNumberChar (hnumber c (by simp))⟩

/-- The first character of a rendering tells the kind of the value. -/
theorem render_head (hrepr : FloatRepr isFloat) {value : PyVal}
    (h : Written isFloat value) :
    ∃ c rest, render value = c :: rest ∧ leadOfChar c = some (lead value) := by
  cases h with
  | pyNone => exact ⟨_, _, rfl, by decide⟩
  | bool b => cases b <;> exact ⟨_, _, rfl, by decide⟩
  | int n => exact number_head (intText_ne_nil n) fun c => isNumberChar_of_mem_intText
  | float hfloat => exact number_head (hrepr.nonempty hfloat) (hrepr.number hfloat)
  | str hs => exact ⟨0x22, _, rfl, rfl⟩
  | list hitems => exact ⟨0x5B, _, rfl, rfl⟩
  | dict hnames hmembers => exact ⟨0x7B, _, rfl, rfl⟩

/-- A written value of a given kind. -/
def OfLead (isFloat : ℚ → PyStr → Prop) (value : PyVal) : Lead → Prop
  | .null => value = .pyNone
  | .yes => value = .bool true
  | .no => value = .bool false
  | .number => (∃ n, value = .int n) ∨
      ∃ x repr, isFloat x repr ∧ value = .float (.rat x) repr
  | .string => ∃ s, IsUnits s ∧ value = .str s
  | .array => ∃ items, (∀ item ∈ items, Written isFloat item) ∧
      value = .list items
  | .object => ∃ members : List (PyStr × PyVal),
      (∀ member ∈ members, IsUnits member.1 ∧ Written isFloat member.2) ∧
        value = .dict (objectEntries members)

theorem Written.ofLead {value : PyVal} (h : Written isFloat value) :
    OfLead isFloat value (lead value) := by
  cases h with
  | pyNone => exact rfl
  | bool b => cases b <;> exact rfl
  | int n => exact Or.inl ⟨n, rfl⟩
  | float hfloat => exact Or.inr ⟨_, _, hfloat, rfl⟩
  | str hs => exact ⟨_, hs, rfl⟩
  | list hitems => exact ⟨_, hitems, rfl⟩
  | dict hnames hmembers =>
      exact ⟨_, fun member hmember =>
        ⟨hnames member hmember, hmembers member hmember⟩, rfl⟩

theorem readsAs_of_lead_ne (hrepr : FloatRepr isFloat) {left right : PyVal}
    (hleft : Written isFloat left) (hright : Written isFloat right)
    (hne : lead left ≠ lead right) :
    ReadsAs (left = right) Stops (render left) (render right) := by
  obtain ⟨c, s, hs, hc⟩ := render_head hrepr hleft
  obtain ⟨d, t, ht, hd⟩ := render_head hrepr hright
  rw [hs, ht]
  apply readsAs_of_head_ne
  rintro rfl
  exact hne (Option.some.inj (hc.symm.trans hd))

/-- Numbers are read up to the first character that is none of theirs. -/
theorem number_readsAs {left right : PyStr}
    (hleft : ∀ c ∈ left, isNumberChar c = true)
    (hright : ∀ c ∈ right, isNumberChar c = true) :
    ReadsAs (left = right) Stops left right :=
  fun _ _ hs ht heq => span_injective hleft hright hs ht heq

theorem stops_separator (s : PyStr) : Stops (py ", " ++ s) := by
  intro c hc
  have hcomma : c = 0x2C := by
    have hhead : some (0x2C : PyChar) = some c := hc
    exact (Option.some.inj hhead).symm
  rw [hcomma]
  decide

theorem stops_cons {close : PyChar} (hclose : isNumberChar close = false)
    (s : PyStr) : Stops (close :: s) := by
  intro c hc
  have hhead : some close = some c := hc
  rw [← Option.some.inj hhead, hclose]
  exact Bool.false_ne_true

theorem separator_apart {close : PyChar} (hne : (0x2C : PyChar) ≠ close) :
    ∃ c rest, py ", " = c :: rest ∧ c ≠ close :=
  ⟨0x2C, [0x20], rfl, hne⟩

theorem render_head_ne (hrepr : FloatRepr isFloat) {value : PyVal}
    (h : Written isFloat value) {close : PyChar} (hclose : leadOfChar close = none) :
    ∃ c rest, render value = c :: rest ∧ c ≠ close := by
  obtain ⟨c, rest, hrender, hlead⟩ := render_head hrepr h
  refine ⟨c, rest, hrender, ?_⟩
  rintro rfl
  rw [hclose] at hlead
  cases hlead

theorem render_list (items : List PyVal) :
    render (.list items) =
      [0x5B] ++ (separated (py ", ") (items.map render) ++ [0x5D]) := by
  rw [render, renderItems_eq_map, joinWith_eq_separated, List.append_assoc]
  rfl

theorem render_dict (members : List (PyStr × PyVal)) :
    render (.dict (objectEntries members)) =
      [0x7B] ++ (separated (py ", ") (members.map renderMember) ++ [0x7D]) := by
  rw [render, renderEntries_objectEntries, joinWith_eq_separated,
    List.append_assoc]
  rfl

theorem renderMember_head (member : PyStr × PyVal) :
    ∃ c rest, renderMember member = c :: rest ∧ c ≠ 0x7D :=
  ⟨0x22, _, rfl, by decide⟩

theorem renderMember_readsAs {left right : PyStr × PyVal}
    (hleft : IsUnits left.1) (hright : IsUnits right.1)
    (hvalue : ReadsAs (left.2 = right.2) Stops (render left.2) (render right.2)) :
    ReadsAs (left = right) Stops (renderMember left) (renderMember right) := by
  intro s t hs ht heq
  rw [renderMember, renderMember, List.append_assoc, List.append_assoc,
    List.append_assoc, List.append_assoc] at heq
  obtain ⟨hname, hrest⟩ := quote_readsAs hleft hright (fun _ => True) _ _
    trivial trivial heq
  obtain ⟨hsame, hend⟩ := hvalue s t hs ht (List.append_cancel_left hrest)
  exact ⟨Prod.ext hname hsame, hend⟩

theorem bracketed_readsAs {α : Type} {print : α → PyStr} {xs ys : List α}
    (first : PyChar) {close : PyChar} (hclose : isNumberChar close = false)
    (hne : (0x2C : PyChar) ≠ close)
    (hxs : ∀ x ∈ xs, ∃ c rest, print x = c :: rest ∧ c ≠ close)
    (hys : ∀ y ∈ ys, ∃ c rest, print y = c :: rest ∧ c ≠ close)
    (hread : ∀ x ∈ xs, ∀ y ∈ ys, ReadsAs (x = y) Stops (print x) (print y)) :
    ReadsAs (xs = ys) Stops
      ([first] ++ (separated (py ", ") (xs.map print) ++ [close]))
      ([first] ++ (separated (py ", ") (ys.map print) ++ [close])) := by
  have hitems : ReadsAs (List.Forall₂ (· = ·) xs ys) Stops
      (separated (py ", ") (xs.map print) ++ [close])
      (separated (py ", ") (ys.map print) ++ [close]) :=
    separated_readsAs stops_separator (stops_cons hclose) (separator_apart hne)
      hxs hys hread
  refine (hitems.append_left [first]).mono ?_
  intro hsame
  rwa [List.forall₂_eq_eq_eq] at hsame

/-- Only values with the same first character remain to be told apart. -/
theorem readsAs_of_lead (hrepr : FloatRepr isFloat) {left right : PyVal}
    (hleft : Written isFloat left) (hright : Written isFloat right)
    (hsame : OfLead isFloat right (lead left) →
      ReadsAs (left = right) Stops (render left) (render right)) :
    ReadsAs (left = right) Stops (render left) (render right) := by
  by_cases hlead : lead left = lead right
  · apply hsame
    rw [hlead]
    exact hright.ofLead
  · exact readsAs_of_lead_ne hrepr hleft hright hlead

/-- A rendering is read as the value it was made of. -/
theorem render_readsAs (hrepr : FloatRepr isFloat) {left right : PyVal}
    (hleft : Written isFloat left) (hright : Written isFloat right) :
    ReadsAs (left = right) Stops (render left) (render right) := by
  induction hleft generalizing right with
  | pyNone =>
      apply readsAs_of_lead hrepr .pyNone hright
      intro hother
      rw [show right = .pyNone from hother]
      exact fun _ _ _ _ heq => ⟨rfl, List.append_cancel_left heq⟩
  | bool b =>
      apply readsAs_of_lead hrepr (.bool b) hright
      intro hother
      have hsame : right = .bool b := by
        cases b
        · exact hother
        · exact hother
      rw [hsame]
      exact fun _ _ _ _ heq => ⟨rfl, List.append_cancel_left heq⟩
  | int n =>
      apply readsAs_of_lead hrepr (.int n) hright
      rintro (⟨m, rfl⟩ | ⟨x, repr, hfloat, rfl⟩)
      · refine (number_readsAs (fun c => isNumberChar_of_mem_intText)
          (fun c => isNumberChar_of_mem_intText)).mono ?_
        intro htext
        rw [intText_injective htext]
      · refine (number_readsAs (fun c => isNumberChar_of_mem_intText)
          (hrepr.number hfloat)).mono ?_
        intro htext
        exact absurd htext.symm (hrepr.not_int hfloat n)
  | float hfloat =>
      apply readsAs_of_lead hrepr (.float hfloat) hright
      rintro (⟨m, rfl⟩ | ⟨y, repr, hfloat', rfl⟩)
      · refine (number_readsAs (hrepr.number hfloat)
          (fun c => isNumberChar_of_mem_intText)).mono ?_
        intro htext
        exact absurd htext (hrepr.not_int hfloat m)
      · refine (number_readsAs (hrepr.number hfloat)
          (hrepr.number hfloat')).mono ?_
        rintro rfl
        rw [hrepr.injective hfloat hfloat']
  | str hs =>
      apply readsAs_of_lead hrepr (.str hs) hright
      rintro ⟨t, ht, rfl⟩
      exact (quote_readsAs hs ht Stops).mono fun heq => by rw [heq]
  | list hitems ih =>
      apply readsAs_of_lead hrepr (.list hitems) hright
      rintro ⟨others, hothers, rfl⟩
      rw [render_list, render_list]
      refine (bracketed_readsAs 0x5B rfl (by decide)
        (fun x hx => render_head_ne hrepr (hitems x hx) (by decide))
        (fun y hy => render_head_ne hrepr (hothers y hy) (by decide))
        fun x hx y hy => ih x hx (hothers y hy)).mono ?_
      intro hsame
      rw [hsame]
  | dict hnames hmembers ih =>
      apply readsAs_of_lead hrepr (.dict hnames hmembers) hright
      rintro ⟨others, hothers, rfl⟩
      rw [render_dict, render_dict]
      refine (bracketed_readsAs 0x7B rfl (by decide)
        (fun x _ => renderMember_head x) (fun y _ => renderMember_head y)
        fun x hx y hy => renderMember_readsAs (hnames x hx) (hothers y hy).1
          (ih x hx (hothers y hy).2)).mono ?_
      intro hsame
      rw [hsame]

end Reading

end PyJson

end QwedA2A
