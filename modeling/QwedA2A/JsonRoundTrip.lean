/-
Writing a payload and reading it back.  Whatever the key order, the escaping and
the padding of the separators, what `json.dumps` writes `json.loads` reads as the
same value, and the payload hash does not change on the way.
-/
import QwedA2A.ParsedPayload

namespace QwedA2A

namespace PyJson

theorem hexDigitValue_hexDigit (n : ℕ) : hexDigitValue (hexDigit n) = some (n % 16) := by
  have hval : ∀ m, m < 0x110000 → (Fin.ofNat 0x110000 m).val = m :=
    fun m hm => Nat.mod_eq_of_lt hm
  rw [hexDigit]
  split_ifs with hdigit
  · rw [hexDigitValue, hval _ (by omega), if_pos (by omega)]
    congr 1
    omega
  · rw [hexDigitValue, hval _ (by omega), if_neg (by omega), if_pos (by omega)]
    congr 1
    omega

/-- The digits of an escape are read back as its code unit. -/
theorem scanHex4_digits {unit : ℕ} (hunit : unit < 0x10000) (rest : PyStr) :
    scanHex4 (hexDigit (unit / 4096) :: hexDigit (unit / 256) ::
      hexDigit (unit / 16) :: hexDigit unit :: rest) = some (unit, rest) := by
  simp only [scanHex4, hexDigitValue_hexDigit, Option.bind_eq_bind,
    Option.bind_some, Option.some.injEq, Prod.mk.injEq, and_true]
  omega

theorem unicodeEscape_append (unit : ℕ) (rest : PyStr) :
    unicodeEscape unit ++ rest =
      0x5C :: 0x75 :: hexDigit (unit / 4096) :: hexDigit (unit / 256) ::
        hexDigit (unit / 16) :: hexDigit unit :: rest := rfl

theorem scanLowSurrogate_unicodeEscape {unit : ℕ} (hunit : unit < 0x10000)
    (rest : PyStr) :
    scanLowSurrogate (unicodeEscape unit ++ rest) =
      if 0xDC00 ≤ unit ∧ unit ≤ 0xDFFF then .ok (some (unit, rest)) else .ok none := by
  rw [unicodeEscape_append, scanLowSurrogate, if_pos ⟨rfl, rfl⟩,
    scanHex4_digits hunit]

/-- The forms of a written character. -/
inductive Escaped (c : PyChar) : PyStr → Prop
  | short {kind : PyChar} (hkind : kind.val ≠ 0x75) (h : simpleEscape kind = some c) :
      Escaped c [0x5C, kind]
  | plain (hquote : c.val ≠ 0x22) (hslash : c.val ≠ 0x5C) (hcontrol : ¬ c.val < 0x20) :
      Escaped c [c]
  | unit (h : c.val < 0x10000) : Escaped c (unicodeEscape c.val)
  | pair (h : ¬ c.val < 0x10000) :
      Escaped c (unicodeEscape (0xD800 + (c.val - 0x10000) / 1024) ++
        unicodeEscape (0xDC00 + (c.val - 0x10000) % 1024))

theorem escaped_escapeChar (ensureAscii : Bool) (c : PyChar) :
    Escaped c (escapeChar ensureAscii c) := by
  have hself : ∀ kind : PyChar, (kind.val = 0x22 ∨ kind.val = 0x5C) → c.val = kind.val →
      Escaped c [0x5C, kind] := by
    intro kind hkind hc
    refine .short (by omega) ?_
    rw [simpleEscape, if_pos (by omega), Fin.ext hc]
  have hletter : ∀ kind target : PyChar, kind.val ≠ 0x75 →
      simpleEscape kind = some target → c.val = target.val → Escaped c [0x5C, kind] := by
    intro kind target hkind hescape hc
    exact .short hkind (by rw [hescape, Fin.ext hc])
  rw [escapeChar]
  split_ifs with hquote hslash hn hr ht hf hb hcontrol hplain hbmp
  · exact hself 0x22 (Or.inl rfl) hquote
  · exact hself 0x5C (Or.inr rfl) hslash
  · exact hletter 0x6E 0x0A (by decide) (by decide) hn
  · exact hletter 0x72 0x0D (by decide) (by decide) hr
  · exact hletter 0x74 0x09 (by decide) (by decide) ht
  · exact hletter 0x66 0x0C (by decide) (by decide) hf
  · exact hletter 0x62 0x08 (by decide) (by decide) hb
  · exact .unit (by omega)
  · exact .plain hquote hslash hcontrol
  · exact .unit hbmp
  · exact .pair hbmp

/-- A written character is read back, unless a high surrogate meets a low one
behind it. -/
theorem scanString_escaped {c : PyChar} {text : PyStr} (h : Escaped c text)
    {fuel : ℕ} {tail s rest : PyStr} (hscan : scanString fuel tail = .ok (s, rest))
    (hapart : isHigh c = true → scanLowSurrogate tail = .ok none) :
    scanString (fuel + 1) (text ++ tail) = .ok (c :: s, rest) := by
  have hval : ∀ n, n < 0x110000 → (Fin.ofNat 0x110000 n).val = n :=
    fun n hn => Nat.mod_eq_of_lt hn
  have hc := c.isLt
  cases h with
  | short hkind hescape =>
      rename_i kind
      have hread : scanEscape (kind :: tail) = .ok (c, tail) := by
        rw [scanEscape, if_neg hkind, hescape]
      rw [List.cons_append, List.cons_append, List.nil_append, scanString,
        if_neg (by decide), if_pos (by decide), hread]
      simp only [ok_bind, hscan]
      rfl
  | plain hquote hslash hcontrol =>
      rw [List.singleton_append, scanString, if_neg hquote, if_neg hslash,
        if_neg hcontrol, hscan]
      rfl
  | unit hbmp =>
      have hread : scanEscape (0x75 :: hexDigit (c.val / 4096) ::
          hexDigit (c.val / 256) :: hexDigit (c.val / 16) :: hexDigit c.val :: tail) =
          .ok (c, tail) := by
        rw [scanEscape, if_pos (by decide), scanHex4_digits hbmp]
        simp only
        split_ifs with hhigh
        · rw [hapart (isHigh_iff.mpr hhigh), ok_bind, Fin.ofNat_val_eq_self]
          rfl
        · rw [Fin.ofNat_val_eq_self]
      rw [unicodeEscape_append, scanString, if_neg (by decide), if_pos (by decide),
        hread]
      simp only [ok_bind, hscan]
      rfl
  | pair hbmp =>
      have hhigh : 0xD800 + (c.val - 0x10000) / 1024 ≤ 0xDBFF := by omega
      have hlow : 0xDC00 ≤ 0xDC00 + (c.val - 0x10000) % 1024 ∧
          0xDC00 + (c.val - 0x10000) % 1024 ≤ 0xDFFF := by omega
      have hjoin : Fin.ofNat 0x110000 (0x10000 + 0x400 *
          (0xD800 + (c.val - 0x10000) / 1024 - 0xD800) +
          (0xDC00 + (c.val - 0x10000) % 1024 - 0xDC00)) = c := by
        apply Fin.ext
        rw [hval _ (by omega)]
        omega
      have hread : scanEscape ((unicodeEscape (0xD800 + (c.val - 0x10000) / 1024) ++
          (unicodeEscape (0xDC00 + (c.val - 0x10000) % 1024) ++ tail)).tail) =
          .ok (c, tail) := by
        rw [unicodeEscape_append, List.tail_cons, scanEscape, if_pos (by decide),
          scanHex4_digits (by omega)]
        simp only
        rw [if_pos ⟨by omega, hhigh⟩, scanLowSurrogate_unicodeEscape (by omega),
          if_pos hlow, ok_bind]
        simp only [hjoin]
        rfl
      rw [List.append_assoc]
      rw [unicodeEscape_append, List.tail_cons] at hread
      rw [unicodeEscape_append, scanString, if_neg (by decide), if_pos (by decide),
        hread]
      simp only [ok_bind, hscan]
      rfl

theorem scanLowSurrogate_head {c : PyChar} (hslash : c.val ≠ 0x5C) (rest : PyStr) :
    scanLowSurrogate (c :: rest) = .ok none := by
  cases rest with
  | nil => rfl
  | cons u rest => rw [scanLowSurrogate, if_neg fun h => hslash h.1]

/-- A written character is no low surrogate escape, unless it is a low
surrogate. -/
theorem scanLowSurrogate_escaped {c : PyChar} {text : PyStr} (h : Escaped c text)
    (hlow : isLow c = false) (rest : PyStr) :
    scanLowSurrogate (text ++ rest) = .ok none := by
  rw [Bool.eq_false_iff, ne_eq, isLow_iff] at hlow
  have hc := c.isLt
  cases h with
  | short hkind _ =>
      rw [List.cons_append, List.cons_append, scanLowSurrogate,
        if_neg fun h => hkind h.2]
  | plain _ hslash _ => exact scanLowSurrogate_head hslash _
  | unit hbmp => rw [scanLowSurrogate_unicodeEscape hbmp, if_neg hlow]
  | pair hbmp =>
      rw [List.append_assoc, scanLowSurrogate_unicodeEscape (by omega),
        if_neg (by omega)]

/-- The inside of a written string, and its closing quote. -/
theorem scanString_written {s : PyStr} (hunpaired : Unpaired s) (ensureAscii : Bool)
    {fuel : ℕ} (hfuel : s.length < fuel) (rest : PyStr) :
    scanString fuel (s.flatMap (escapeChar ensureAscii) ++ 0x22 :: rest) =
      .ok (s, rest) := by
  induction s generalizing fuel with
  | nil =>
      obtain ⟨fuel, rfl⟩ := Nat.exists_eq_succ_of_ne_zero (Nat.ne_of_gt hfuel)
      rfl
  | cons c tail ih =>
      obtain ⟨fuel, rfl⟩ := Nat.exists_eq_succ_of_ne_zero
        (Nat.ne_of_gt (Nat.lt_of_le_of_lt (Nat.zero_le _) hfuel))
      rw [List.length_cons] at hfuel
      rw [List.flatMap_cons, List.append_assoc]
      apply scanString_escaped (escaped_escapeChar ensureAscii c)
        (ih hunpaired.of_cons (by omega))
      intro hhigh
      cases tail with
      | nil => exact scanLowSurrogate_head (by decide) rest
      | cons d tail =>
          have hapart := (List.isChain_cons_cons.mp hunpaired).1
          rw [List.flatMap_cons, List.append_assoc]
          exact scanLowSurrogate_escaped (escaped_escapeChar ensureAscii d)
            (Bool.eq_false_iff.mpr fun hlow => hapart ⟨hhigh, hlow⟩) _

theorem Escaped.length_pos {c : PyChar} {text : PyStr} (h : Escaped c text) :
    0 < text.length := by
  cases h with
  | short => exact Nat.succ_pos _
  | plain => exact Nat.succ_pos _
  | unit => exact Nat.succ_pos _
  | pair => exact Nat.succ_pos _

theorem length_le_flatMap_escapeChar (ensureAscii : Bool) (s : PyStr) :
    s.length ≤ (s.flatMap (escapeChar ensureAscii)).length := by
  induction s with
  | nil => exact le_rfl
  | cons c tail ih =>
      have hpos := (escaped_escapeChar ensureAscii c).length_pos
      rw [List.flatMap_cons, List.length_append, List.length_cons]
      omega

theorem quote_append (ensureAscii : Bool) (s rest : PyStr) :
    quote ensureAscii s ++ rest =
      0x22 :: (s.flatMap (escapeChar ensureAscii) ++ 0x22 :: rest) := by
  rw [quote, List.append_assoc, List.append_assoc]
  rfl

/-- A written string is read back behind its opening quote. -/
theorem scanString_quote {s : PyStr} (hunpaired : Unpaired s) (ensureAscii : Bool)
    (rest : PyStr) :
    scanString (s.flatMap (escapeChar ensureAscii) ++ 0x22 :: rest).length
      (s.flatMap (escapeChar ensureAscii) ++ 0x22 :: rest) = .ok (s, rest) := by
  apply scanString_written hunpaired
  have hlength := length_le_flatMap_escapeChar ensureAscii s
  rw [List.length_append, List.length_cons]
  omega

/-- What follows a value in a written text: nothing, a comma or a closing
bracket. -/
def Ends (rest : PyStr) : Prop :=
  ∀ c ∈ rest.head?, c.val = 0x2C ∨ c.val = 0x5D ∨ c.val = 0x7D

theorem takeWhile_append_ends {p : PyChar → Bool} {digits rest : PyStr}
    (hdigits : ∀ c ∈ digits, p c = true) (hrest : ∀ c ∈ rest.head?, p c = false) :
    (digits ++ rest).takeWhile p = digits := by
  rw [List.takeWhile_append_of_pos hdigits]
  cases rest with
  | nil => rw [List.takeWhile_nil, List.append_nil]
  | cons c rest => rw [List.takeWhile_cons_of_neg (by simp [hrest c rfl]), List.append_nil]

theorem Ends.not_digit {rest : PyStr} (h : Ends rest) :
    ∀ c ∈ rest.head?, PyDecimal.isDigit c = false := by
  intro c hc
  have hends := h c hc
  rw [PyDecimal.isDigit, decide_eq_false_iff_not]
  omega

theorem scan_ends {rest : PyStr} (h : Ends rest) :
    fractionDigits rest = [] ∧ afterFraction rest = rest ∧ scanExponent rest = none := by
  cases rest with
  | nil => exact ⟨rfl, rfl, rfl⟩
  | cons c rest =>
      have hends := h c rfl
      have hfraction : fractionDigits (c :: rest) = [] := by
        rw [fractionDigits, if_neg (by omega)]
      refine ⟨hfraction, if_pos hfraction, ?_⟩
      rw [scanExponent, if_neg (by omega)]

theorem isDigit_of_mem_natText {n : ℕ} {c : PyChar} (hc : c ∈ natText n) :
    PyDecimal.isDigit c = true := by
  have hdigit := isDigitChar_of_mem_natText hc
  rw [isDigitChar, Bool.and_eq_true, decide_eq_true_eq, decide_eq_true_eq] at hdigit
  exact decide_eq_true hdigit

theorem digitsValue_natText (n : ℕ) : PyDecimal.digitsValue (natText n) = n := by
  rw [natText_eq_map, PyDecimal.digitsValue, List.foldl_map]
  exact (Nat.ofDigitChars_eq_foldl).symm.trans Nat.ofDigitChars_ten_toDigits

theorem natText_head {n : ℕ} {c : PyChar} {rest : PyStr} (h : natText n = c :: rest)
    (hzero : c.val = 0x30) : rest = [] := by
  by_contra hne
  have hvalue : PyDecimal.digitsValue rest = n := by
    have hall := digitsValue_natText n
    rw [h, PyDecimal.digitsValue, List.foldl_cons, hzero] at hall
    exact hall
  have hlt : n < 10 ^ rest.length := by
    rw [← hvalue]
    exact digitsValue_lt fun d hd =>
      isDigit_of_mem_natText (n := n) (by rw [h]; exact List.mem_cons_of_mem _ hd)
  have hlength := (Nat.length_toDigits_le_iff (by omega)
    (List.length_pos_iff.mpr hne)).mpr hlt
  have hnat := congrArg List.length h
  rw [natText_eq_map, List.length_map, List.length_cons] at hnat
  omega

theorem wholeDigits_natText (n : ℕ) {rest : PyStr} (h : Ends rest) :
    wholeDigits (natText n ++ rest) = natText n := by
  cases hdigits : natText n with
  | nil => exact absurd hdigits (natText_ne_nil n)
  | cons c tail =>
      rw [List.cons_append, wholeDigits]
      split_ifs with hzero
      · rw [natText_head hdigits hzero]
      · rw [← List.cons_append, ← hdigits]
        exact takeWhile_append_ends (fun _ hd => isDigit_of_mem_natText hd) h.not_digit

theorem splitMinus_digit {c : PyChar} (hdigit : PyDecimal.isDigit c = true)
    (rest : PyStr) : splitMinus (c :: rest) = (false, c :: rest) := by
  have hrange := of_decide_eq_true hdigit
  rw [splitMinus, if_neg]
  simp only [List.head?_cons, Option.map_some, Option.some.injEq]
  omega

theorem splitMinus_intText (n : ℤ) (rest : PyStr) :
    splitMinus (intText n ++ rest) = (decide (n < 0), natText n.natAbs ++ rest) := by
  rw [intText]
  split_ifs with hneg
  · rw [decide_eq_true hneg]
    rfl
  · rw [decide_eq_false hneg]
    cases hdigits : natText n.natAbs with
    | nil => exact absurd hdigits (natText_ne_nil _)
    | cons c tail =>
        exact splitMinus_digit
          (isDigit_of_mem_natText (n := n.natAbs) (by rw [hdigits]; simp)) _

theorem scanNumber_intText (interp : Interpreter) {n : ℤ} (hprintable : Printable n)
    {rest : PyStr} (hrest : Ends rest) :
    scanNumber interp (intText n ++ rest) = .ok (.int n, rest) := by
  obtain ⟨hfraction, hafter, hexponent⟩ := scan_ends hrest
  have hwhole := wholeDigits_natText n.natAbs hrest
  have hvalue : (if decide (n < 0) = true then -(n.natAbs : ℤ) else n.natAbs) = n := by
    split_ifs with hneg
    · have := of_decide_eq_true hneg
      omega
    · have := of_decide_eq_false (Bool.not_eq_true _ ▸ hneg)
      omega
  have hliteral : intLiteral (decide (n < 0)) (natText n.natAbs) = .ok (.int n) := by
    rw [intLiteral, if_neg (not_lt.mpr hprintable), digitsValue_natText, hvalue]
  simp only [scanNumber, splitMinus_intText, hwhole, List.drop_left, hfraction,
    hafter, hexponent, if_neg (natText_ne_nil n.natAbs), if_true, hliteral]
  rfl

/-- The named values begin with a letter, or with a minus and a letter. -/
theorem scanScalar_of_number (interp : Interpreter) {text : PyStr}
    (h : ∀ literal ∈ literals interp, literal.1.isPrefixOf text = false) :
    scanScalar interp text = scanNumber interp text := by
  rw [scanScalar, List.find?_eq_none.mpr fun literal hmem => by
    rw [h literal hmem]
    exact Bool.false_ne_true]

/-- The names begin with a letter, or with a minus and a letter. -/
theorem literal_head (interp : Interpreter) :
    ∀ literal ∈ literals interp, ∃ first second more,
      literal.1 = first :: second :: more ∧ PyDecimal.isDigit first = false ∧
        (first ≠ 0x2D ∨ PyDecimal.isDigit second = false) := by
  intro literal hmem
  simp only [literals, List.mem_cons, List.not_mem_nil, or_false] at hmem
  rcases hmem with rfl | rfl | rfl | rfl | rfl | rfl
  · exact ⟨0x6E, 0x75, _, rfl, by decide, Or.inl (by decide)⟩
  · exact ⟨0x74, 0x72, _, rfl, by decide, Or.inl (by decide)⟩
  · exact ⟨0x66, 0x61, _, rfl, by decide, Or.inl (by decide)⟩
  · exact ⟨0x4E, 0x61, _, rfl, by decide, Or.inl (by decide)⟩
  · exact ⟨0x49, 0x6E, _, rfl, by decide, Or.inl (by decide)⟩
  · exact ⟨0x2D, 0x49, _, rfl, by decide, Or.inr (by decide)⟩

theorem literal_not_digits (interp : Interpreter) {digits : PyStr} (hne : digits ≠ [])
    (hdigits : ∀ c ∈ digits, PyDecimal.isDigit c = true) (negative : Bool)
    (rest : PyStr) :
    ∀ literal ∈ literals interp,
      ¬ literal.1 <+: (if negative then [0x2D] else []) ++ digits ++ rest := by
  intro literal hmem hprefix
  obtain ⟨first, second, more, hliteral, hfirst, hsecond⟩ :=
    literal_head interp literal hmem
  obtain ⟨c, tail, rfl⟩ := List.exists_cons_of_ne_nil hne
  have hc := hdigits c List.mem_cons_self
  rw [hliteral] at hprefix
  cases negative with
  | false =>
      have heq : first = c := (List.cons_prefix_cons.mp hprefix).1
      rw [heq, hc] at hfirst
      cases hfirst
  | true =>
      obtain ⟨hminus, hrest⟩ := List.cons_prefix_cons.mp hprefix
      have heq : second = c := (List.cons_prefix_cons.mp hrest).1
      rcases hsecond with hother | hletter
      · exact hother hminus
      · rw [heq, hc] at hletter
        cases hletter

theorem scanScalar_intText (interp : Interpreter) {n : ℤ} (hprintable : Printable n)
    {rest : PyStr} (hrest : Ends rest) :
    scanScalar interp (intText n ++ rest) = .ok (.int n, rest) := by
  rw [scanScalar_of_number, scanNumber_intText interp hprintable hrest]
  intro literal hmem
  rw [Bool.eq_false_iff, ne_eq, List.isPrefixOf_iff_prefix]
  have hnot := literal_not_digits interp (natText_ne_nil n.natAbs)
    (fun _ hc => isDigit_of_mem_natText hc) (decide (n < 0)) rest literal hmem
  rw [intText]
  by_cases hneg : n < 0
  · rw [if_pos hneg]
    rwa [decide_eq_true hneg] at hnot
  · rw [if_neg hneg]
    rwa [decide_eq_false hneg] at hnot

/-- `float.__repr__` of a finite float is read back as that float. -/
def ReadsBack (interp : Interpreter) (x : ℚ) (repr : PyStr) : Prop :=
  ∀ rest, Ends rest →
    scanScalar interp (repr ++ rest) = .ok (.float (.rat x) repr, rest)

/-- The text begins with no blank, no closing bracket and no byte order mark. -/
def Leads (text : PyStr) : Prop :=
  ∃ first rest, text = first :: rest ∧ isBlank first = false ∧ first.val ≠ 0x5D ∧
    first.val ≠ 0x7D ∧ first.val ≠ 0xFEFF

/-- A scanner reads a value off a text, wherever the text ends. -/
structure ScansTo {α : Type} (scanner : Scanner α) (text : PyStr) (value : α) :
    Prop where
  lead : Leads text
  scans : ∀ rest, Ends rest → scanner (text ++ rest) = .ok (value, rest)

/-- A character that begins no name and no number. -/
def Foreign (c : PyChar) : Prop :=
  c.val = 0x22 ∨ c.val = 0x5B ∨ c.val = 0x7B ∨ c.val = 0x5D ∨ c.val = 0x7D ∨
    c.val = 0xFEFF ∨ isBlank c = true

theorem scanScalar_foreign (interp : Interpreter) {c : PyChar} (h : Foreign c)
    (rest : PyStr) : scanScalar interp (c :: rest) = .error expectingValue := by
  have hcode : c.val < 0x2D ∨ c.val = 0x5B ∨ c.val = 0x5D ∨ 0x7B ≤ c.val := by
    simp only [Foreign, isBlank, Bool.or_eq_true, decide_eq_true_eq] at h
    omega
  have hdigit : PyDecimal.isDigit c = false := by
    rw [PyDecimal.isDigit, decide_eq_false_iff_not]
    omega
  have hminus : splitMinus (c :: rest) = (false, c :: rest) := by
    rw [splitMinus, if_neg]
    simp only [List.head?_cons, Option.map_some, Option.some.injEq]
    omega
  have hwhole : wholeDigits (c :: rest) = [] := by
    rw [wholeDigits, if_neg (by omega), List.takeWhile_cons_of_neg (by simp [hdigit])]
  rw [scanScalar_of_number, scanNumber]
  · simp only [hminus, hwhole, if_true]
  · intro literal hmem
    rw [Bool.eq_false_iff, ne_eq, List.isPrefixOf_iff_prefix]
    intro hprefix
    simp only [literals, List.mem_cons, List.not_mem_nil, or_false] at hmem
    have hfirst : c.val = 0x6E ∨ c.val = 0x74 ∨ c.val = 0x66 ∨ c.val = 0x4E ∨
        c.val = 0x49 ∨ c.val = 0x2D := by
      rcases hmem with rfl | rfl | rfl | rfl | rfl | rfl
      all_goals
        have heq := (List.cons_prefix_cons.mp hprefix).1
        rw [← heq]
        decide
    omega

/-- At no nesting is there more to reading a name or a number. -/
theorem scanWith_scalar {interp : Interpreter} {nested : Option (Scanner PyVal)}
    {text : PyStr} {value : PyVal} {rest : PyStr}
    (h : scanScalar interp text = .ok (value, rest)) :
    scanWith interp nested text = .ok (value, rest) := by
  cases text with
  | nil => exact absurd (scanScalar_length h) (Nat.not_lt_zero _)
  | cons c tail =>
      have hforeign : ¬ Foreign c := by
        intro hforeign
        rw [scanScalar_foreign interp hforeign] at h
        cases h
      simp only [Foreign, not_or] at hforeign
      rw [scanWith, if_neg hforeign.1, if_neg hforeign.2.1, if_neg hforeign.2.2.1, h]

theorem scansTo_scalar {interp : Interpreter} {nested : Option (Scanner PyVal)}
    {text : PyStr} {value : PyVal}
    (h : ∀ rest, Ends rest → scanScalar interp (text ++ rest) = .ok (value, rest)) :
    ScansTo (scanWith interp nested) text value where
  lead := by
    have hscan := h [] (by simp [Ends])
    rw [List.append_nil] at hscan
    cases text with
    | nil => exact absurd (scanScalar_length hscan) (Nat.lt_irrefl _)
    | cons c rest =>
        have hforeign : ¬ Foreign c := by
          intro hforeign
          rw [scanScalar_foreign interp hforeign] at hscan
          cases hscan
        simp only [Foreign, not_or, Bool.not_eq_true] at hforeign
        obtain ⟨_, _, _, hbracket, hbrace, hmark, hblank⟩ := hforeign
        exact ⟨c, rest, rfl, hblank, hbracket, hbrace, hmark⟩
  scans rest hrest := scanWith_scalar (h rest hrest)

theorem scansTo_str {interp : Interpreter} {nested : Option (Scanner PyVal)}
    {s : PyStr} (hunpaired : Unpaired s) (ensureAscii : Bool) :
    ScansTo (scanWith interp nested) (quote ensureAscii s) (.str s) where
  lead := ⟨0x22, _, (List.append_nil _).symm.trans (quote_append ensureAscii s []),
    by decide, by decide, by decide, by decide⟩
  scans rest _ := by
    rw [quote_append, scanWith, if_pos (by decide),
      scanString_quote hunpaired ensureAscii rest]
    rfl

/-- The separators of a style: a comma and a colon, with padding behind them. -/
structure Style.Separates (style : Style) (itemPad keyPad : PyStr) : Prop where
  item : style.itemSeparator = 0x2C :: itemPad
  key : style.keySeparator = 0x3A :: keyPad
  itemBlank : itemPad.all isBlank = true
  keyBlank : keyPad.all isBlank = true

theorem canonicalStyle_separates : canonicalStyle.Separates [0x20] [0x20] where
  item := rfl
  key := rfl
  itemBlank := by decide
  keyBlank := by decide

theorem compactStyle_separates : compactStyle.Separates [] [] where
  item := rfl
  key := rfl
  itemBlank := by decide
  keyBlank := by decide

theorem skipBlanks_pad {pad text : PyStr} (hpad : pad.all isBlank = true)
    (hlead : Leads text) (rest : PyStr) :
    skipBlanks (pad ++ (text ++ rest)) = text ++ rest := by
  obtain ⟨first, tail, rfl, hfirst, _⟩ := hlead
  rw [skipBlanks, List.dropWhile_append_of_pos (List.all_eq_true.mp hpad),
    List.cons_append, List.dropWhile_cons_of_neg (by simp [hfirst])]

theorem Leads.joinWith {sep part : PyStr} (h : Leads part) (parts : List PyStr) :
    Leads (joinWith sep (part :: parts)) := by
  obtain ⟨first, tail, rfl, hfirst⟩ := h
  cases parts with
  | nil => exact ⟨first, tail, rfl, hfirst⟩
  | cons next parts =>
      refine ⟨first, tail ++ sep ++ QwedA2A.joinWith sep (next :: parts), ?_, hfirst⟩
      rw [QwedA2A.joinWith]
      · simp
      · exact List.cons_ne_nil _ _

section Elements

variable {α : Type} {element : Scanner α}

/-- Written elements are read back up to the closing bracket. -/
theorem scanElements_joined {close : PyChar} (missing : PyExc)
    (hclose : close.val = 0x5D ∨ close.val = 0x7D)
    {pad : PyStr} (hpad : pad.all isBlank = true) {parts : List PyStr}
    {items : List α} (hparts : List.Forall₂ (ScansTo element) parts items)
    (hne : parts ≠ []) {fuel : ℕ} (rest : PyStr)
    (hfuel : (joinWith (0x2C :: pad) parts ++ close :: rest).length ≤ fuel) :
    scanElements element close.val missing fuel
      (joinWith (0x2C :: pad) parts ++ close :: rest) = .ok (items, rest) := by
  have hskip : ∀ c : PyChar, (c.val = 0x2C ∨ c.val = 0x5D ∨ c.val = 0x7D) →
      ∀ tail, skipBlanks (c :: tail) = c :: tail := by
    intro c hc tail
    rw [skipBlanks, List.dropWhile_cons_of_neg]
    simp only [isBlank, Bool.or_eq_true, decide_eq_true_eq]
    omega
  induction hparts generalizing fuel with
  | nil => exact absurd rfl hne
  | cons hfirst hrest ih =>
      rename_i part item parts items
      obtain ⟨fuel, rfl⟩ : ∃ n, fuel = n + 1 := by
        refine Nat.exists_eq_succ_of_ne_zero fun hzero => ?_
        rw [hzero, List.length_append, List.length_cons] at hfuel
        omega
      cases parts with
      | nil =>
          cases hrest
          have hscan := hfirst.scans (close :: rest) fun c hc => by
            rw [List.head?_cons, Option.mem_some_iff] at hc
            subst hc
            exact Or.inr hclose
          rw [joinWith, scanElements, hscan, ok_bind]
          simp only [hskip close (Or.inr hclose), if_true]
          rfl
      | cons next parts =>
          have hjoin : joinWith (0x2C :: pad) (part :: next :: parts) ++ close :: rest =
              part ++ (0x2C :: (pad ++
                (joinWith (0x2C :: pad) (next :: parts) ++ close :: rest))) := by
            rw [joinWith]
            · simp
            · exact List.cons_ne_nil _ _
          have hscan := hfirst.scans (0x2C :: (pad ++
            (joinWith (0x2C :: pad) (next :: parts) ++ close :: rest))) fun c hc => by
              rw [List.head?_cons, Option.mem_some_iff] at hc
              subst hc
              exact Or.inl rfl
          have hlead : Leads (joinWith (0x2C :: pad) (next :: parts)) := by
            cases hrest with
            | cons hnext _ => exact hnext.lead.joinWith parts
          rw [hjoin] at hfuel ⊢
          rw [List.length_append, List.length_cons, List.length_append] at hfuel
          have hmore := @ih (List.cons_ne_nil _ _) fuel (by omega)
          rw [scanElements, hscan, ok_bind]
          simp only [hskip 0x2C (Or.inl rfl)]
          rw [if_neg (by rcases hclose with h | h <;> rw [h] <;> decide),
            if_pos (by decide), skipBlanks_pad hpad hlead, hmore]
          rfl

end Elements

section Containers

variable {interp : Interpreter} {inner : Scanner PyVal} {pad : PyStr}
  {parts : List PyStr}

theorem leads_of_parts {α : Type} {element : Scanner α} {items : List α}
    (sep : PyStr) {part : PyStr}
    (hparts : List.Forall₂ (ScansTo element) (part :: parts) items) :
    Leads (joinWith sep (part :: parts)) := by
  cases hparts with
  | cons hfirst _ => exact hfirst.lead.joinWith parts

theorem skipBlanks_leads {text : PyStr} (h : Leads text) (rest : PyStr) :
    skipBlanks (text ++ rest) = text ++ rest :=
  @skipBlanks_pad [] text rfl h rest

theorem head_ne_of_leads {text : PyStr} (h : Leads text) (rest : PyStr) :
    (text ++ rest).head?.map Fin.val ≠ some 0x5D ∧
      (text ++ rest).head?.map Fin.val ≠ some 0x7D := by
  obtain ⟨first, tail, rfl, _, hbracket, hbrace, _⟩ := h
  simp [hbracket, hbrace]

theorem scansTo_list (hpad : pad.all isBlank = true) {items : List PyVal}
    (hparts : List.Forall₂ (ScansTo inner) parts items) :
    ScansTo (scanWith interp (some inner))
      (py "[" ++ joinWith (0x2C :: pad) parts ++ py "]") (.list items) where
  lead := ⟨0x5B, _, rfl, by decide, by decide, by decide, by decide⟩
  scans rest _ := by
    have hopen : py "[" ++ joinWith (0x2C :: pad) parts ++ py "]" ++ rest =
        0x5B :: (joinWith (0x2C :: pad) parts ++ 0x5D :: rest) := by
      rw [List.append_assoc, List.append_assoc]
      rfl
    rw [hopen, scanWith, if_neg (by decide), if_pos (by decide), scanNested, scanArray]
    cases parts with
    | nil =>
        cases hparts
        rfl
    | cons part parts =>
        have hlead := leads_of_parts (0x2C :: pad) hparts
        have hscan := @scanElements_joined _ inner 0x5D expectingValue (Or.inl rfl)
          _ hpad _ _ hparts (List.cons_ne_nil _ _) _ rest le_rfl
        simp only [skipBlanks_leads hlead, if_neg (head_ne_of_leads hlead _).1]
        rw [scanItems]
        exact bind_eq_ok.mpr ⟨_, hscan, rfl⟩

theorem scansTo_member (hpad : pad.all isBlank = true) {name text : PyStr}
    {value : PyVal} (hunpaired : Unpaired name) (ensureAscii : Bool)
    (hvalue : ScansTo inner text value) :
    ScansTo (scanMember inner) (quote ensureAscii name ++ 0x3A :: pad ++ text)
      (name, value) where
  lead := by
    rw [List.append_assoc, quote_append]
    exact ⟨0x22, _, rfl, by decide, by decide, by decide, by decide⟩
  scans rest hrest := by
    have hcolon : skipBlanks (0x3A :: (pad ++ (text ++ rest))) =
        0x3A :: (pad ++ (text ++ rest)) := rfl
    have hname : quote ensureAscii name ++ 0x3A :: pad ++ text ++ rest =
        0x22 :: (name.flatMap (escapeChar ensureAscii) ++ 0x22 :: 0x3A ::
          (pad ++ (text ++ rest))) := by
      rw [List.append_assoc, List.append_assoc, quote_append]
      rfl
    rw [hname, scanMember, if_pos (by decide), scanString_quote hunpaired, ok_bind]
    simp only [hcolon]
    rw [if_pos (by decide), skipBlanks_pad hpad hvalue.lead, hvalue.scans rest hrest]
    rfl

/-- Members under distinct names are kept as they come. -/
theorem foldl_setEntry_distinct (members : List (PyStr × PyVal)) :
    ∀ earlier : List (PyStr × PyVal), ((earlier ++ members).map Prod.fst).Nodup →
      members.foldl (fun entries member => setEntry entries member.1 member.2)
        (objectEntries earlier) = objectEntries (earlier ++ members) := by
  induction members with
  | nil =>
      intro earlier _
      rw [List.append_nil]
      rfl
  | cons member rest ih =>
      intro earlier hdistinct
      have hnew : member.1 ∉ earlier.map Prod.fst := by
        rw [List.map_append, List.map_cons] at hdistinct
        intro hmem
        exact (List.nodup_append.mp hdistinct).2.2 _ hmem _ List.mem_cons_self rfl
      have hset : setMember earlier member.1 member.2 = earlier ++ [member] :=
        if_neg hnew
      rw [List.foldl_cons, setEntry_objectEntries, hset, ih, List.append_assoc]
      · rfl
      · rwa [List.append_assoc]

theorem scansTo_dict (hpad : pad.all isBlank = true)
    {members : List (PyStr × PyVal)} (hdistinct : (members.map Prod.fst).Nodup)
    (hparts : List.Forall₂ (ScansTo (scanMember inner)) parts members) :
    ScansTo (scanWith interp (some inner))
      (py "\x7b" ++ joinWith (0x2C :: pad) parts ++ py "\x7d")
      (.dict (objectEntries members)) where
  lead := ⟨0x7B, _, rfl, by decide, by decide, by decide, by decide⟩
  scans rest _ := by
    have hopen : py "\x7b" ++ joinWith (0x2C :: pad) parts ++ py "\x7d" ++ rest =
        0x7B :: (joinWith (0x2C :: pad) parts ++ 0x7D :: rest) := by
      rw [List.append_assoc, List.append_assoc]
      rfl
    rw [hopen, scanWith, if_neg (by decide), if_neg (by decide), if_pos (by decide),
      scanNested, scanObject]
    cases parts with
    | nil =>
        cases hparts
        rfl
    | cons part parts =>
        have hlead := leads_of_parts (0x2C :: pad) hparts
        have hscan := @scanElements_joined _ (scanMember inner) 0x7D expectingName
          (Or.inr rfl) _ hpad _ _ hparts (List.cons_ne_nil _ _) _ rest le_rfl
        simp only [skipBlanks_leads hlead, if_neg (head_ne_of_leads hlead _).2]
        rw [scanMembers]
        refine bind_eq_ok.mpr ⟨_, hscan, ?_⟩
        have hfold := foldl_setEntry_distinct members [] (by simpa using hdistinct)
        rw [List.nil_append] at hfold
        simp only
        rw [show ([] : PyDict) = objectEntries [] from rfl, hfold]
        rfl

end Containers

theorem exists_forall₂ {α β γ : Type} {R : α → β → Prop} {S : β → γ → Prop}
    {T : α → γ → Prop} {xs : List α} {ys : List β} (h : List.Forall₂ R xs ys)
    (hstep : ∀ x ∈ xs, ∀ y, R x y → ∃ z, S y z ∧ T x z) :
    ∃ zs, List.Forall₂ S ys zs ∧ List.Forall₂ T xs zs := by
  induction h with
  | nil => exact ⟨[], .nil, .nil⟩
  | cons hfirst _ ih =>
      obtain ⟨z, hS, hT⟩ := hstep _ List.mem_cons_self _ hfirst
      obtain ⟨zs, hrest, hrest'⟩ :=
        ih fun x hx => hstep x (List.mem_cons_of_mem _ hx)
      exact ⟨z :: zs, .cons hS hrest, .cons hT hrest'⟩

def Style.ordered {α : Type} (style : Style) (members : List (PyStr × α)) :
    List (PyStr × α) :=
  if style.sortKeys then inKeyOrder members else members

theorem Style.ordered_perm {α : Type} (style : Style) (members : List (PyStr × α)) :
    (style.ordered members).Perm members := by
  rw [ordered]
  split_ifs
  · exact List.perm_insertionSort NameLe members
  · exact .refl _

theorem encode_list_ok {style : Style} {depth : ℕ} {items : List PyVal} {text : PyStr}
    (h : encode style (depth + 1) (.list items) = .ok text) :
    ∃ parts, List.Forall₂ (fun item part => encode style depth item = .ok part)
        items parts ∧
      text = py "[" ++ joinWith style.itemSeparator parts ++ py "]" := by
  rw [encode, encodeItems_eq_map, List.mapM_map] at h
  obtain ⟨parts, hparts, h⟩ := bind_eq_ok.mp h
  exact ⟨parts, mapM_ok_iff.mp hparts, (Except.ok.inj h).symm⟩

theorem Style.ordered_map {α β : Type} (style : Style) (f : α → β)
    (members : List (PyStr × α)) :
    style.ordered (members.map fun member => (member.1, f member.2)) =
      (style.ordered members).map fun member => (member.1, f member.2) := by
  rw [ordered, ordered]
  split_ifs
  · exact inKeyOrder_map f members
  · rfl

/-- An object under string keys: its members in the order of the style. -/
theorem objectText_objectEntries (style : Style)
    (members : List (PyStr × Except PyExc PyStr)) :
    objectText style (objectEntries members) =
      ((style.ordered members).mapM fun member => do
        let text ← member.2
        pure (quote style.ensureAscii member.1 ++ style.keySeparator ++ text)) >>=
      fun parts => .ok (py "\x7b" ++ joinWith style.itemSeparator parts ++ py "\x7d") := by
  have hparts : ∀ ordered : List (PyStr × Except PyExc PyStr),
      ((objectEntries ordered).mapM fun member => do
        let key ← keyText member.1
        let text ← member.2
        pure (quote style.ensureAscii key ++ style.keySeparator ++ text)) =
      (ordered.mapM fun member => do
        let text ← member.2
        pure (quote style.ensureAscii member.1 ++ style.keySeparator ++ text)) := by
    intro ordered
    rw [objectEntries, List.mapM_map]
    rfl
  rw [objectText, Style.ordered]
  split_ifs
  · rw [sortItems_objectEntries, ok_bind]
    dsimp only
    rw [hparts]
    rfl
  · rw [ok_bind]
    dsimp only
    rw [hparts]
    rfl

theorem encode_dict_ok {style : Style} {depth : ℕ} {members : List (PyStr × PyVal)}
    {text : PyStr}
    (h : encode style (depth + 1) (.dict (objectEntries members)) = .ok text) :
    ∃ parts, List.Forall₂ (fun member part => ∃ written,
          encode style depth member.2 = .ok written ∧
            part = quote style.ensureAscii member.1 ++ style.keySeparator ++ written)
        (style.ordered members) parts ∧
      text = py "\x7b" ++ joinWith style.itemSeparator parts ++ py "\x7d" := by
  have hentries : encodeEntries style depth (objectEntries members) =
      objectEntries (members.map fun member =>
        (member.1, encode style depth member.2)) := by
    rw [encodeEntries_eq_map]
    simp [objectEntries, Function.comp_def]
  rw [encode, hentries, objectText_objectEntries, style.ordered_map (encode style depth)]
    at h
  obtain ⟨parts, hparts, h⟩ := bind_eq_ok.mp h
  rw [List.mapM_map] at hparts
  refine ⟨parts, (mapM_ok_iff.mp hparts).imp fun member part hpart => ?_,
    (Except.ok.inj h).symm⟩
  obtain ⟨written, hwritten, hpart⟩ := bind_eq_ok.mp hpart
  exact ⟨written, hwritten, (Except.ok.inj hpart).symm⟩

/-- A name or a number is read at whatever nesting. -/
theorem scansTo_of_scalar {interp : Interpreter} (limit : ℕ) {text : PyStr}
    {value : PyVal}
    (h : ∀ rest, Ends rest → scanScalar interp (text ++ rest) = .ok (value, rest)) :
    ScansTo (scanValue interp limit) text value := by
  cases limit with
  | zero => exact scansTo_scalar h
  | succ limit => exact scansTo_scalar h

/-- What is written of a JSON value is read back as the same value. -/
theorem encode_scansTo {interp : Interpreter} {isFloat : ℚ → PyStr → Prop}
    (hread : ∀ x repr, isFloat x repr → ReadsBack interp x repr) {style : Style}
    {itemPad keyPad : PyStr} (hstyle : style.Separates itemPad keyPad) {value : PyVal}
    (h : JsonValue Unpaired isFloat value) {depth limit : ℕ} (hlimit : depth ≤ limit)
    {text : PyStr} (hencode : encode style depth value = .ok text) :
    ∃ copy, ScansTo (scanValue interp limit) text copy ∧
      SameValue value copy ∧ JsonValue Unpaired isFloat copy := by
  induction h generalizing depth limit text with
  | pyNone =>
      cases hencode
      exact ⟨.pyNone, scansTo_of_scalar limit fun rest _ => rfl,
        by rw [SameValue]; trivial, .pyNone⟩
  | bool b =>
      refine ⟨.bool b, scansTo_of_scalar limit fun rest _ => ?_, by rw [SameValue],
        .bool b⟩
      cases b <;> cases hencode <;> rfl
  | int n =>
      refine ⟨.int n, scansTo_of_scalar limit fun rest hrest => ?_, by rw [SameValue],
        .int n⟩
      rw [encode, intRepr] at hencode
      split_ifs at hencode with hdigits
      cases hencode
      exact scanScalar_intText interp hdigits hrest
  | float hfloat =>
      cases hencode
      exact ⟨_, scansTo_of_scalar limit (hread _ _ hfloat),
        by rw [SameValue]; exact ⟨rfl, rfl⟩, .float hfloat⟩
  | str hunpaired =>
      cases hencode
      refine ⟨_, ?_, by rw [SameValue], .str hunpaired⟩
      cases limit with
      | zero => exact scansTo_str hunpaired _
      | succ limit => exact scansTo_str hunpaired _
  | list hitems ih =>
      cases depth with
      | zero => cases hencode
      | succ depth =>
          obtain ⟨limit, rfl⟩ := Nat.exists_eq_succ_of_ne_zero
            (Nat.ne_of_gt (Nat.lt_of_lt_of_le (Nat.succ_pos _) hlimit))
          obtain ⟨parts, hparts, rfl⟩ := encode_list_ok hencode
          obtain ⟨copies, hscans, hsame⟩ := exists_forall₂ hparts
            fun item hitem part hpart =>
              ih item hitem (Nat.le_of_succ_le_succ hlimit) hpart
          refine ⟨.list copies, ?_, ?_, .list fun copy hcopy => ?_⟩
          · rw [hstyle.item]
            exact scansTo_list hstyle.itemBlank hscans
          · exact sameValue_list.mpr (hsame.imp fun _ _ hpair => hpair.1)
          · obtain ⟨item, _, hpair⟩ := exists_of_forall₂ hsame.flip hcopy
            exact hpair.2
  | dict hdistinct hnames hmembers ih =>
      rename_i members
      cases depth with
      | zero => cases hencode
      | succ depth =>
          obtain ⟨limit, rfl⟩ := Nat.exists_eq_succ_of_ne_zero
            (Nat.ne_of_gt (Nat.lt_of_lt_of_le (Nat.succ_pos _) hlimit))
          obtain ⟨parts, hparts, rfl⟩ := encode_dict_ok hencode
          have hperm := style.ordered_perm members
          obtain ⟨copies, hscans, hsame⟩ :
              ∃ copies : List (PyStr × PyVal),
                List.Forall₂ (ScansTo (scanMember (scanValue interp limit))) parts
                  copies ∧
                List.Forall₂ (fun member copy => member.1 = copy.1 ∧
                  SameValue member.2 copy.2 ∧ JsonValue Unpaired isFloat copy.2)
                  (style.ordered members) copies := by
            apply exists_forall₂ hparts
            rintro member hmember part ⟨written, hwritten, rfl⟩
            have hmem := hperm.mem_iff.mp hmember
            obtain ⟨copy, hscan, hsame, hjson⟩ :=
              ih member hmem (Nat.le_of_succ_le_succ hlimit) hwritten
            rw [hstyle.key]
            exact ⟨(member.1, copy), scansTo_member hstyle.keyBlank (hnames member hmem)
              style.ensureAscii hscan, rfl, hsame, hjson⟩
          have hkeys : (style.ordered members).map Prod.fst = copies.map Prod.fst :=
            map_eq_of_forall₂ hsame fun _ _ _ _ hpair => hpair.1
          have hcopies : (copies.map Prod.fst).Nodup := by
            rw [← hkeys]
            exact (hperm.map Prod.fst).nodup_iff.mpr hdistinct
          have hback : ∀ copy ∈ copies, ∃ member ∈ members, member.1 = copy.1 ∧
              JsonValue Unpaired isFloat copy.2 := by
            intro copy hcopy
            obtain ⟨member, hmember, hkey, _, hjson⟩ := exists_of_forall₂ hsame.flip hcopy
            exact ⟨member, hperm.mem_iff.mp hmember, hkey, hjson⟩
          refine ⟨.dict (objectEntries copies), ?_, ?_, .dict hcopies ?_ ?_⟩
          · rw [hstyle.item]
            exact scansTo_dict hstyle.itemBlank hcopies hscans
          · rw [sameValue_dict, ← hperm.length_eq, hsame.length_eq]
            refine ⟨rfl, fun member hmember => ?_⟩
            obtain ⟨copy, hcopy, hkey, hvalue, _⟩ :=
              exists_of_forall₂ hsame (hperm.mem_iff.mpr hmember)
            exact ⟨copy, hcopy, hkey, hvalue⟩
          · intro copy hcopy
            obtain ⟨member, hmember, hkey, _⟩ := hback copy hcopy
            exact hkey ▸ hnames member hmember
          · intro copy hcopy
            obtain ⟨_, _, _, hjson⟩ := hback copy hcopy
            exact hjson

/-- A text that a scanner reads to its end is read by `json.loads`. -/
theorem loads_of_scansTo {interp : Interpreter} {text : PyStr} {value : PyVal}
    (h : ScansTo (scanValue interp interp.depth) text value) :
    loads interp text = .ok value := by
  have hscan := h.scans [] (by simp [Ends])
  have hskip := skipBlanks_leads h.lead []
  rw [List.append_nil] at hscan hskip
  have hmark : ¬ text.head?.map Fin.val = some 0xFEFF := by
    obtain ⟨first, rest, rfl, _, _, _, hmark⟩ := h.lead
    simpa using hmark
  rw [loads, if_neg hmark, hskip, hscan, ok_bind]
  rfl

end PyJson

open PyJson

/-- A payload that was read from a text without surrogates can be sent on in any
style, and is then read as the same payload, under the same hash. -/
theorem payload_survives_transport {Token : Type} (interp : Interpreter)
    (lib : CryptoLib Token) (text : PyStr) (body payload : PyVal)
    (hunicode : isUnicode text = true) (hread : loads interp text = .ok body)
    (hpayload : Occurs payload body)
    (hfloats : ∀ number repr, Occurs (.float number repr) payload →
      ∃ x, number = .rat x ∧ ReadsBack interp x repr)
    (style : Style) (itemPad keyPad : PyStr)
    (hstyle : style.Separates itemPad keyPad) :
    ∃ wire copy, encode style interp.depth payload = .ok wire ∧
      loads interp wire = .ok copy ∧ SameValue payload copy ∧
        payloadHash lib payload = payloadHash lib copy := by
  obtain ⟨depth, hdepth, hparsed⟩ := (loads_unpaired hunicode hread).of_occurs hpayload
  have hjson : JsonValue Unpaired (ReadsBack interp) payload := hparsed.jsonValue hfloats
  obtain ⟨wire, hwire⟩ := (encode_returns_iff style interp.depth payload).mpr
    ⟨hparsed.writable hdepth, fun _ => hparsed.sortable⟩
  obtain ⟨copy, hscan, hsame, hcopy⟩ :=
    encode_scansTo (fun _ _ h => h) hstyle hjson le_rfl hwire
  refine ⟨wire, copy, hwire, loads_of_scansTo hscan, hsame, ?_⟩
  rw [payloadHash, encode_eq_of_same hjson hcopy hsame, ← payloadHash]

namespace Reference

theorem readsBack_oneAndAHalf : ReadsBack reader (3 / 2) (py "1.5") := by
  intro rest hrest
  obtain ⟨_, _, hexponent⟩ := scan_ends hrest
  have htext : py "1.5" ++ rest = 0x31 :: 0x2E :: 0x35 :: rest := rfl
  have hwhole : wholeDigits (0x31 :: 0x2E :: 0x35 :: rest) = [0x31] := rfl
  have hfraction : fractionDigits (0x2E :: 0x35 :: rest) = [0x35] :=
    @takeWhile_append_ends PyDecimal.isDigit [0x35] rest (by simp; decide)
      hrest.not_digit
  have hafter : afterFraction (0x2E :: 0x35 :: rest) = rest := by
    rw [afterFraction, hfraction]
    rfl
  have hvalue : floatLiteral reader false [0x31] [0x35] 0 =
      .float (.rat (3 / 2)) (py "1.5") := by
    decide +kernel
  rw [htext, scanScalar_of_number]
  · have hminus : ∀ tail, splitMinus (0x31 :: tail) = (false, 0x31 :: tail) :=
      splitMinus_digit rfl
    simp only [scanNumber, hminus, hwhole, List.length_singleton, List.drop_succ_cons,
      List.drop_zero, hfraction, hafter, hexponent, hvalue, List.cons_ne_nil, if_false]
  · intro literal hmem
    rw [Bool.eq_false_iff, ne_eq, List.isPrefixOf_iff_prefix]
    exact @literal_not_digits reader [0x31] (List.cons_ne_nil _ _) (by simp; decide)
      false _ literal hmem

end Reference

/-- The order is sent on in the canonical style. -/
theorem payload_survives_transport_order :
    ∃ wire copy, encode canonicalStyle Reference.reader.depth
        (.dict (objectEntries (order false))) = .ok wire ∧
      loads Reference.reader wire = .ok copy ∧
        SameValue (.dict (objectEntries (order false))) copy ∧
          payloadHash Reference.lib (.dict (objectEntries (order false))) =
            payloadHash Reference.lib copy :=
  payload_survives_transport Reference.reader Reference.lib Reference.bodyText
    Reference.body _ (by decide +kernel) Reference.loads_bodyText
    (.member List.mem_cons_self .here) (fun _ _ hoccurs => by
      obtain ⟨_, rfl, rfl, rfl⟩ := (order_json false).of_occurs hoccurs
      exact ⟨_, rfl, Reference.readsBack_oneAndAHalf⟩)
    canonicalStyle [0x20] [0x20] canonicalStyle_separates

end QwedA2A
