/-
The regex layer of the code guard.  Its six patterns look for obfuscated calls, with
letters in either case and white space between the tokens; what they find are the
spellings of eight shapes.
-/
import QwedA2A.CodeScan
import QwedA2A.Interceptor
import QwedA2A.TextPattern

namespace QwedA2A

open TextPattern

/-- A literal under IGNORECASE: an ASCII letter in either case, or a character
outside ASCII that lowers to the letter or is kept equivalent to it. -/
def ignoreCase (literal c : PyChar) : Bool :=
  let lower := lowerAscii literal
  lowerAscii c = lower ||
    (lower = PyChar.ofChar 'i' && (c.val = 0x130 || c.val = 0x131)) ||
    (lower = PyChar.ofChar 's' && c.val = 0x17F) ||
    (lower = PyChar.ofChar 'k' && c.val = 0x212A)

def literal (text : PyStr) : Pattern PyChar :=
  text.foldr (fun c rest => .seq (.one (ignoreCase c)) rest) .empty

/-- `\s*`. -/
def spaces : Pattern PyChar := .star (.one PyChar.isSpace)

def sequence (parts : List (Pattern PyChar)) : Pattern PyChar :=
  parts.foldr .seq .empty

/-- `\w`, by the letters and digits of the interpreter's tables. -/
def wordChar (isAlnum : PyChar → Bool) (c : PyChar) : Bool :=
  isAlnum c || c = PyChar.ofChar '_'

/-- `(?:__builtins__|builtins)`. -/
def builtinsName : Pattern PyChar :=
  .alt (literal (py "__builtins__")) (literal (py "builtins"))

/-- `getattr\s*\(\s*(?:__builtins__|builtins)\s*`. -/
def getattrBuiltin : Pattern PyChar :=
  sequence [literal (py "getattr"), spaces, literal (py "("), spaces, builtinsName,
    spaces]

/-- `\b(?:__builtins__|builtins)\s*\.\s*__dict__\s*\[`. -/
def builtinsDictAccess : Pattern PyChar :=
  .seq .boundary (sequence [builtinsName, spaces, literal (py "."), spaces,
    literal (py "__dict__"), spaces, literal (py "[")])

/-- `(?:base64\s*\.\s*b64decode|b64decode)\s*\(`. -/
def base64Exec : Pattern PyChar :=
  sequence
    [.alt (sequence [literal (py "base64"), spaces, literal (py "."), spaces,
        literal (py "b64decode")]) (literal (py "b64decode")),
      spaces, literal (py "(")]

/-- `__import__\s*\(`. -/
def dynamicImport : Pattern PyChar :=
  sequence [literal (py "__import__"), spaces, literal (py "(")]

/-- `\bos\.system\s*\(`. -/
def osSystem : Pattern PyChar :=
  .seq .boundary (sequence [literal (py "os.system"), spaces, literal (py "(")])

/-- `\bos\.popen\s*\(`. -/
def osPopen : Pattern PyChar :=
  .seq .boundary (sequence [literal (py "os.popen"), spaces, literal (py "(")])

def dangerousPatterns : List (PyStr × Pattern PyChar) :=
  [(py "getattr_builtin", getattrBuiltin),
    (py "builtins_dict_access", builtinsDictAccess),
    (py "base64_exec", base64Exec),
    (py "dynamic_import", dynamicImport),
    (py "os_system", osSystem),
    (py "os_popen", osPopen)]

def scanRegexThreats (isAlnum : PyChar → Bool) (code : PyStr) : List PyStr :=
  (dangerousPatterns.filter fun entry =>
    search (wordChar isAlnum) entry.2 code).map Prod.fst

/-- A token, or white space that may stand between tokens. -/
inductive Piece where
  | token (text : PyStr)
  | gap

/-- What a piece may be written as. -/
def Piece.Fits : Piece → PyStr → Prop
  | .token text, part => List.Forall₂ (fun l c => ignoreCase l c = true) text part
  | .gap, part => ∀ c ∈ part, c.isSpace = true

/-- What the pieces may be written as. -/
def WrittenAs : List Piece → PyStr → Prop
  | [], text => text = []
  | piece :: rest, text =>
      ∃ part later, text = part ++ later ∧ piece.Fits part ∧ WrittenAs rest later

/-- A shape that is reported; some count only where they begin a word. -/
structure Shape where
  label : PyStr
  atWord : Bool
  pieces : List Piece

def Shape.OccursIn (isAlnum : PyChar → Bool) (shape : Shape) (code : PyStr) : Prop :=
  ∃ prior found later, code = prior ++ found ++ later ∧ WrittenAs shape.pieces found ∧
    (shape.atWord = true → prior.getLast?.any (wordChar isAlnum) = false)

def getattrShape (name : PyStr) : Shape :=
  ⟨py "getattr_builtin", false,
    [.token (py "getattr"), .gap, .token (py "("), .gap, .token name]⟩

def dictShape (name : PyStr) : Shape :=
  ⟨py "builtins_dict_access", true,
    [.token name, .gap, .token (py "."), .gap, .token (py "__dict__"), .gap,
      .token (py "[")]⟩

def callShape (label : PyStr) (atWord : Bool) (name : PyStr) : Shape :=
  ⟨label, atWord, [.token name, .gap, .token (py "(")]⟩

def shapesByPattern : List (List Shape) :=
  [[getattrShape (py "__builtins__"), getattrShape (py "builtins")],
    [dictShape (py "__builtins__"), dictShape (py "builtins")],
    [callShape (py "base64_exec") false (py "b64decode")],
    [callShape (py "dynamic_import") false (py "__import__")],
    [callShape (py "os_system") true (py "os.system")],
    [callShape (py "os_popen") true (py "os.popen")]]

def dangerousShapes : List Shape := shapesByPattern.flatten

theorem plain_literal (text : PyStr) : (literal text).plain = true := by
  induction text with
  | nil => rfl
  | cons c rest ih => exact ih

theorem mem_literal {text part : PyStr} :
    part ∈ (literal text).language ↔ (Piece.token text).Fits part := by
  induction text generalizing part with
  | nil => exact Iff.symm List.forall₂_nil_left_iff
  | cons c rest ih =>
      rw [Piece.Fits, List.forall₂_cons_left_iff]
      constructor
      · rintro ⟨_, ⟨head, hhead, rfl⟩, tail, htail, rfl⟩
        exact ⟨head, tail, hhead, ih.mp htail, rfl⟩
      · rintro ⟨head, tail, hhead, htail, rfl⟩
        exact ⟨[head], ⟨head, hhead, rfl⟩, tail, ih.mpr htail, rfl⟩

theorem mem_spaces {part : PyStr} : part ∈ spaces.language ↔ Piece.gap.Fits part := by
  constructor
  · intro h
    obtain ⟨parts, rfl, hparts⟩ := Language.mem_kstar.mp h
    intro c hc
    obtain ⟨one, hone, hc⟩ := List.mem_flatten.mp hc
    obtain ⟨d, hd, rfl⟩ := hparts one hone
    cases List.mem_singleton.mp hc
    exact hd
  · intro h
    refine Language.mem_kstar.mpr ⟨part.map fun c => [c], by simp [← List.flatMap_def], ?_⟩
    intro one hone
    obtain ⟨c, hc, rfl⟩ := List.mem_map.mp hone
    exact ⟨c, h c hc, rfl⟩

def Piece.pattern : Piece → Pattern PyChar
  | .token text => literal text
  | .gap => spaces

theorem Piece.mem_language {piece : Piece} {part : PyStr} :
    part ∈ piece.pattern.language ↔ piece.Fits part := by
  cases piece with
  | token text => exact mem_literal
  | gap => exact mem_spaces

def Shape.pattern (shape : Shape) : Pattern PyChar :=
  sequence (shape.pieces.map Piece.pattern)

theorem mem_sequence_pieces {pieces : List Piece} {text : PyStr} :
    text ∈ (sequence (pieces.map Piece.pattern)).language ↔ WrittenAs pieces text := by
  induction pieces generalizing text with
  | nil => exact Iff.rfl
  | cons piece rest ih =>
      constructor
      · rintro ⟨part, hpart, later, hlater, rfl⟩
        exact ⟨part, later, rfl, Piece.mem_language.mp hpart, ih.mp hlater⟩
      · rintro ⟨part, later, rfl, hpart, hlater⟩
        exact ⟨part, Piece.mem_language.mpr hpart, later, ih.mpr hlater, rfl⟩

theorem Shape.occursIn_iff {isAlnum : PyChar → Bool} {shape : Shape} {code : PyStr} :
    shape.OccursIn isAlnum code ↔
      if shape.atWord then
        OccursAtWord (wordChar isAlnum) shape.pattern.language code
      else Occurs shape.pattern.language code := by
  rw [Shape.OccursIn]
  cases shape.atWord with
  | true =>
      simp only [if_true, forall_const]
      simp only [OccursAtWord, Shape.pattern, mem_sequence_pieces]
  | false =>
      simp only [Bool.false_eq_true, if_false, false_implies, and_true]
      simp only [Occurs, Shape.pattern, mem_sequence_pieces]

/-- The letters and digits among the ASCII characters. -/
def AsciiAlnum (isAlnum : PyChar → Bool) : Prop :=
  ∀ c : PyChar, c.val < 0x80 →
    isAlnum c = decide ((0x30 ≤ c.val ∧ c.val ≤ 0x39) ∨
      (0x41 ≤ c.val ∧ c.val ≤ 0x5A) ∨ (0x61 ≤ c.val ∧ c.val ≤ 0x7A))

section Patterns

variable {isAlnum : PyChar → Bool} {code : PyStr}

/-- The pattern reports the label where one of its shapes occurs. -/
def Finds (isAlnum : PyChar → Bool) (pattern : Pattern PyChar) (code : PyStr)
    (shapes : List Shape) : Prop :=
  search (wordChar isAlnum) pattern code = true ↔
    ∃ shape ∈ shapes, shape.OccursIn isAlnum code

theorem plain_sequence_pieces (pieces : List Piece) :
    (sequence (pieces.map Piece.pattern)).plain = true := by
  induction pieces with
  | nil => rfl
  | cons piece rest ih =>
      rw [List.map_cons, sequence, List.foldr_cons, Pattern.plain, Bool.and_eq_true]
      refine ⟨?_, ih⟩
      cases piece with
      | token text => exact plain_literal text
      | gap => rfl

/-- A pattern that is one shape, not bound to the beginning of a word. -/
theorem finds_pieces (label : PyStr) (pieces : List Piece) :
    Finds isAlnum (sequence (pieces.map Piece.pattern)) code
      [⟨label, false, pieces⟩] := by
  rw [Finds, search_plain_iff (plain_sequence_pieces pieces)]
  simp only [List.mem_singleton, exists_eq_left, Shape.occursIn_iff, Shape.pattern,
    Bool.false_eq_true, if_false]

theorem eq_or_upper_of_lowerAscii {c l : PyChar} (h : lowerAscii c = l) :
    c = l ∨ (0x41 ≤ c.val ∧ c.val ≤ 0x5A) := by
  rw [lowerAscii] at h
  split_ifs at h with hupper
  · exact Or.inr hupper
  · exact Or.inl h

/-- A literal that starts a word does so in either case. -/
theorem wordChar_of_ignoreCase (halnum : AsciiAlnum isAlnum) {l c : PyChar}
    (hlower : lowerAscii l = l) (hi : l ≠ PyChar.ofChar 'i')
    (hs : l ≠ PyChar.ofChar 's') (hk : l ≠ PyChar.ofChar 'k')
    (hl : wordChar isAlnum l = true) (h : ignoreCase l c = true) :
    wordChar isAlnum c = true := by
  have hsame : lowerAscii c = l := by
    simpa [ignoreCase, hlower, hi, hs, hk] using h
  rcases eq_or_upper_of_lowerAscii hsame with rfl | hupper
  · exact hl
  · rw [wordChar, halnum c (by omega), decide_eq_true (Or.inr (Or.inl hupper))]
    rfl

/-- The token begins a word, in either case. -/
def StartsWord (isAlnum : PyChar → Bool) (token : PyStr) : Prop :=
  ∀ part, (Piece.token token).Fits part → part.head?.any (wordChar isAlnum) = true

theorem startsWord_cons {c : PyChar} {text : PyStr}
    (h : ∀ d, ignoreCase c d = true → wordChar isAlnum d = true) :
    StartsWord isAlnum (c :: text) := by
  intro part hpart
  obtain ⟨d, rest, hd, _, rfl⟩ := List.forall₂_cons_left_iff.mp hpart
  exact h d hd

theorem startsWord_underscore (halnum : AsciiAlnum isAlnum) (text : PyStr) :
    StartsWord isAlnum (PyChar.ofChar '_' :: text) := by
  apply startsWord_cons
  intro d hd
  have hword : wordChar isAlnum (PyChar.ofChar '_') = true := by simp [wordChar]
  exact wordChar_of_ignoreCase halnum (by decide) (by decide) (by decide) (by decide)
    hword hd

theorem startsWord_letter (halnum : AsciiAlnum isAlnum) {c : PyChar}
    (hletter : 0x61 ≤ c.val ∧ c.val ≤ 0x7A) (hi : c ≠ PyChar.ofChar 'i')
    (hs : c ≠ PyChar.ofChar 's') (hk : c ≠ PyChar.ofChar 'k') (text : PyStr) :
    StartsWord isAlnum (c :: text) := by
  apply startsWord_cons
  intro d hd
  have hlower : lowerAscii c = c := if_neg (by omega)
  refine wordChar_of_ignoreCase halnum hlower hi hs hk ?_ hd
  rw [wordChar, halnum c (by omega), decide_eq_true (Or.inr (Or.inr hletter))]
  rfl

theorem head_of_startsWord {token : PyStr} (h : StartsWord isAlnum token)
    {l : Language PyChar} {text : PyStr} (htext : text ∈ (literal token).language * l) :
    text.head?.any (wordChar isAlnum) = true := by
  obtain ⟨part, hpart, later, _, rfl⟩ := htext
  have hhead := h part (mem_literal.mp hpart)
  cases part with
  | nil => cases hhead
  | cons d rest => exact hhead

/-- A pattern that is one shape, bound to the beginning of a word. -/
theorem finds_pieces_atWord (label : PyStr) {token : PyStr} (pieces : List Piece)
    (h : StartsWord isAlnum token) :
    Finds isAlnum
      (.seq .boundary (sequence ((.token token :: pieces).map Piece.pattern))) code
      [⟨label, true, .token token :: pieces⟩] := by
  rw [Finds, search_boundary_iff (plain_sequence_pieces _) fun text htext =>
    head_of_startsWord h htext]
  simp only [List.mem_singleton, exists_eq_left, Shape.occursIn_iff, Shape.pattern,
    if_true]

theorem finds_getattrBuiltin : Finds isAlnum getattrBuiltin code
    [getattrShape (py "__builtins__"), getattrShape (py "builtins")] := by
  have hlanguage : getattrBuiltin.language =
      ((getattrShape (py "__builtins__")).pattern.language +
        (getattrShape (py "builtins")).pattern.language) * spaces.language := by
    simp only [getattrBuiltin, builtinsName, getattrShape, Shape.pattern, sequence,
      List.map_cons, List.map_nil, List.foldr_cons, List.foldr_nil, Piece.pattern,
      Pattern.language, mul_one, mul_add, add_mul, mul_assoc]
  have hnil : [] ∈ spaces.language := Language.nil_mem_kstar _
  have hplain : getattrBuiltin.plain = true := by
    simp only [getattrBuiltin, builtinsName, sequence, List.foldr_cons,
      List.foldr_nil, Pattern.plain, plain_literal, spaces, Bool.and_self]
  rw [Finds, search_plain_iff hplain, hlanguage, occurs_mul_of_nil hnil, occurs_add]
  simp [Shape.occursIn_iff, getattrShape]

theorem finds_builtinsDictAccess (halnum : AsciiAlnum isAlnum) :
    Finds isAlnum builtinsDictAccess code
      [dictShape (py "__builtins__"), dictShape (py "builtins")] := by
  have hlanguage : (sequence [builtinsName, spaces, literal (py "."), spaces,
      literal (py "__dict__"), spaces, literal (py "[")]).language =
        (dictShape (py "__builtins__")).pattern.language +
          (dictShape (py "builtins")).pattern.language := by
    simp only [builtinsName, dictShape, Shape.pattern, sequence, List.map_cons,
      List.map_nil, List.foldr_cons, List.foldr_nil, Piece.pattern, Pattern.language,
      mul_one, add_mul]
  have hplain : (sequence [builtinsName, spaces, literal (py "."), spaces,
      literal (py "__dict__"), spaces, literal (py "[")]).plain = true := by
    simp only [builtinsName, sequence, List.foldr_cons, List.foldr_nil,
      Pattern.plain, plain_literal, spaces, Bool.and_self]
  rw [Finds, builtinsDictAccess, search_boundary_iff hplain, hlanguage,
    occursAtWord_add]
  · simp [Shape.occursIn_iff, dictShape]
  · intro text htext
    rw [hlanguage] at htext
    rcases htext with hdunder | hplainName
    · exact head_of_startsWord (startsWord_underscore halnum _) hdunder
    · exact head_of_startsWord
        (startsWord_letter halnum (by decide) (by decide) (by decide) (by decide) _)
        hplainName

/-- The longer spelling of the decoder ends in the shorter. -/
theorem finds_base64Exec : Finds isAlnum base64Exec code
    [callShape (py "base64_exec") false (py "b64decode")] := by
  have hlanguage : base64Exec.language =
      ((literal (py "base64")).language * (spaces.language *
        ((literal (py ".")).language * spaces.language))) *
          (callShape (py "base64_exec") false (py "b64decode")).pattern.language +
        (callShape (py "base64_exec") false (py "b64decode")).pattern.language := by
    simp only [base64Exec, callShape, Shape.pattern, sequence, List.map_cons,
      List.map_nil, List.foldr_cons, List.foldr_nil, Piece.pattern, Pattern.language,
      mul_one, add_mul, mul_assoc]
  have hplain : base64Exec.plain = true := by
    simp only [base64Exec, sequence, List.foldr_cons, List.foldr_nil, Pattern.plain,
      plain_literal, spaces, Bool.and_self]
  rw [Finds, search_plain_iff hplain, hlanguage, occurs_add,
    or_iff_right_of_imp Occurs.of_mul_left]
  simp [Shape.occursIn_iff, callShape]

/-- A pattern with its label finds the shapes of that label. -/
structure Reports (isAlnum : PyChar → Bool) (code : PyStr)
    (entry : PyStr × Pattern PyChar) (shapes : List Shape) : Prop where
  finds : Finds isAlnum entry.2 code shapes
  labels : ∀ shape ∈ shapes, shape.label = entry.1

theorem dangerousPatterns_report (halnum : AsciiAlnum isAlnum) (code : PyStr) :
    List.Forall₂ (Reports isAlnum code) dangerousPatterns shapesByPattern := by
  have hletter : ∀ rest, StartsWord isAlnum (PyChar.ofChar 'o' :: rest) :=
    startsWord_letter halnum (by decide) (by decide) (by decide) (by decide)
  have himport : Finds isAlnum dynamicImport code
      [callShape (py "dynamic_import") false (py "__import__")] :=
    finds_pieces (py "dynamic_import") [.token (py "__import__"), .gap, .token (py "(")]
  have hsystem : Finds isAlnum osSystem code
      [callShape (py "os_system") true (py "os.system")] :=
    finds_pieces_atWord (py "os_system") [.gap, .token (py "(")] (hletter _)
  have hpopen : Finds isAlnum osPopen code
      [callShape (py "os_popen") true (py "os.popen")] :=
    finds_pieces_atWord (py "os_popen") [.gap, .token (py "(")] (hletter _)
  refine .cons ⟨finds_getattrBuiltin, ?_⟩ (.cons ⟨finds_builtinsDictAccess halnum, ?_⟩
    (.cons ⟨finds_base64Exec, ?_⟩ (.cons ⟨himport, ?_⟩ (.cons ⟨hsystem, ?_⟩
      (.cons ⟨hpopen, ?_⟩ .nil)))))
  all_goals simp [getattrShape, dictShape, callShape]

theorem exists_reported_iff {entries : List (PyStr × Pattern PyChar)}
    {groups : List (List Shape)} (h : List.Forall₂ (Reports isAlnum code) entries groups)
    (label : PyStr) :
    (∃ entry ∈ entries, search (wordChar isAlnum) entry.2 code = true ∧
        entry.1 = label) ↔
      ∃ shape ∈ groups.flatten, shape.label = label ∧ shape.OccursIn isAlnum code := by
  induction h with
  | nil => simp
  | @cons entry shapes entries groups hentry _ ih =>
      have hhead : (search (wordChar isAlnum) entry.2 code = true ∧ entry.1 = label) ↔
          ∃ shape ∈ shapes, shape.label = label ∧ shape.OccursIn isAlnum code := by
        have hfinds := hentry.finds
        rw [Finds] at hfinds
        rw [hfinds]
        constructor
        · rintro ⟨⟨shape, hshape, hoccurs⟩, rfl⟩
          exact ⟨shape, hshape, hentry.labels shape hshape, hoccurs⟩
        · rintro ⟨shape, hshape, rfl, hoccurs⟩
          exact ⟨⟨shape, hshape, hoccurs⟩, (hentry.labels shape hshape).symm⟩
      rw [List.flatten_cons]
      simp only [List.exists_mem_cons_iff, List.mem_append, or_and_right, exists_or]
      rw [hhead, ih]

theorem mem_scanRegexThreats (halnum : AsciiAlnum isAlnum) {label : PyStr} :
    label ∈ scanRegexThreats isAlnum code ↔
      ∃ shape ∈ dangerousShapes, shape.label = label ∧
        shape.OccursIn isAlnum code := by
  rw [dangerousShapes, ← exists_reported_iff (dangerousPatterns_report halnum code)]
  simp only [scanRegexThreats, List.mem_map, List.mem_filter, and_assoc]

end Patterns

/-- A label is reported exactly when one of its shapes occurs in the code: with its
letters in any case, any white space between its tokens, and any text around it.
The labels are reported in the order of the patterns, each at most once. -/
theorem regex_threats_iff (isAlnum : PyChar → Bool) (halnum : AsciiAlnum isAlnum)
    (code : PyStr) :
    (∀ label, label ∈ scanRegexThreats isAlnum code ↔
      ∃ shape ∈ dangerousShapes, shape.label = label ∧
        shape.OccursIn isAlnum code) ∧
    (scanRegexThreats isAlnum code).Sublist (dangerousPatterns.map Prod.fst) ∧
    (scanRegexThreats isAlnum code).Nodup := by
  have hsublist : (scanRegexThreats isAlnum code).Sublist
      (dangerousPatterns.map Prod.fst) := List.filter_sublist.map Prod.fst
  have hnodup : (dangerousPatterns.map Prod.fst).Nodup := by
    simp only [dangerousPatterns, List.map_cons, List.map_nil]
    decide +kernel
  exact ⟨fun _ => mem_scanRegexThreats halnum, hsublist, hnodup.sublist hsublist⟩

namespace Reference

def isAlnum (c : PyChar) : Bool :=
  decide ((0x30 ≤ c.val ∧ c.val ≤ 0x39) ∨ (0x41 ≤ c.val ∧ c.val ≤ 0x5A) ∨
    (0x61 ≤ c.val ∧ c.val ≤ 0x7A))

theorem asciiAlnum : AsciiAlnum isAlnum := fun _ _ => rfl

end Reference

theorem regex_threats_iff_decoder :
    ∃ shape ∈ dangerousShapes, shape.label = py "base64_exec" ∧
      shape.OccursIn Reference.isAlnum (py "f(B64Decode (x))") :=
  ((regex_threats_iff Reference.isAlnum Reference.asciiAlnum
    (py "f(B64Decode (x))")).1 (py "base64_exec")).mp (by decide +kernel)

/-- The characters are one, or one ASCII letter in two cases. -/
def SameLetter (c d : PyChar) : Prop := lowerAscii c = lowerAscii d

section Hiding

variable {isAlnum : PyChar → Bool}

def isLetter (c : PyChar) : Prop :=
  (0x41 ≤ c.val ∧ c.val ≤ 0x5A) ∨ (0x61 ≤ c.val ∧ c.val ≤ 0x7A)

theorem SameLetter.cases {c d : PyChar} (h : SameLetter c d) :
    c = d ∨ (isLetter c ∧ isLetter d) := by
  have hval := congrArg Fin.val h
  have hc := c.isLt
  have hd := d.isLt
  rw [lowerAscii, lowerAscii] at hval
  split_ifs at hval with hupper hupper' hupper'
  · simp only [Fin.val_ofNat] at hval
    exact Or.inl (Fin.ext (by omega))
  · simp only [Fin.val_ofNat] at hval
    exact Or.inr ⟨Or.inl hupper, Or.inr (by omega)⟩
  · simp only [Fin.val_ofNat] at hval
    exact Or.inr ⟨Or.inr (by omega), Or.inl hupper'⟩
  · exact Or.inl (Fin.ext hval)

theorem SameLetter.ignoreCase {c d : PyChar} (h : SameLetter c d) (l : PyChar) :
    ignoreCase l c = ignoreCase l d := by
  rcases h.cases with rfl | ⟨hc, hd⟩
  · rfl
  · have hlow : ∀ {e : PyChar}, isLetter e → e.val ≠ 0x130 ∧ e.val ≠ 0x131 ∧
        e.val ≠ 0x17F ∧ e.val ≠ 0x212A := by
      intro e he
      rw [isLetter] at he
      omega
    rw [QwedA2A.ignoreCase, QwedA2A.ignoreCase, h]
    simp [hlow hc, hlow hd]

theorem isSpace_of_isLetter {c : PyChar} (h : isLetter c) : c.isSpace = false := by
  rw [isLetter] at h
  simp only [PyChar.isSpace, Bool.or_eq_false_iff, Bool.and_eq_false_iff,
    beq_eq_false_iff_ne, decide_eq_false_iff_not]
  omega

theorem SameLetter.isSpace {c d : PyChar} (h : SameLetter c d) :
    c.isSpace = d.isSpace := by
  rcases h.cases with rfl | ⟨hc, hd⟩
  · rfl
  · rw [isSpace_of_isLetter hc, isSpace_of_isLetter hd]

theorem SameLetter.wordChar (halnum : AsciiAlnum isAlnum) {c d : PyChar}
    (h : SameLetter c d) : wordChar isAlnum c = wordChar isAlnum d := by
  have hletter : ∀ e : PyChar, isLetter e → QwedA2A.wordChar isAlnum e = true := by
    intro e he
    rw [isLetter] at he
    rw [QwedA2A.wordChar, halnum e (by omega), decide_eq_true (Or.inr he)]
    rfl
  rcases h.cases with rfl | ⟨hc, hd⟩
  · rfl
  · rw [hletter c hc, hletter d hd]

theorem literal_respects (text : PyStr) : (literal text).Respects SameLetter := by
  induction text with
  | nil => trivial
  | cons c rest ih => exact ⟨fun _ _ h => h.ignoreCase c, ih⟩

theorem spaces_respects : spaces.Respects SameLetter := fun _ _ h => h.isSpace

theorem dangerousPatterns_respect :
    ∀ entry ∈ dangerousPatterns, entry.2.Respects SameLetter := by
  simp [dangerousPatterns, getattrBuiltin, builtinsDictAccess, base64Exec,
    dynamicImport, osSystem, osPopen, builtinsName, sequence, Pattern.Respects,
    literal_respects, spaces_respects]

theorem scanRegexThreats_of_sameLetters (halnum : AsciiAlnum isAlnum)
    {code code' : PyStr} (h : List.Forall₂ SameLetter code code') :
    scanRegexThreats isAlnum code = scanRegexThreats isAlnum code' := by
  have hback : List.Forall₂ SameLetter code' code := h.flip.imp fun _ _ => Eq.symm
  rw [scanRegexThreats, scanRegexThreats]
  refine congrArg _ (List.filter_congr fun entry hentry => ?_)
  have hrespects := dangerousPatterns_respect entry hentry
  rw [Bool.eq_iff_iff]
  exact ⟨search_of_related (fun _ _ hsame => hsame.wordChar halnum) hrespects h,
    search_of_related (fun _ _ hsame => hsame.wordChar halnum) hrespects hback⟩

/-- The shapes that are bound to a word's beginning begin with a word character. -/
theorem dangerousShapes_start (halnum : AsciiAlnum isAlnum) :
    ∀ shape ∈ dangerousShapes, shape.atWord = true →
      ∀ found ∈ shape.pattern.language,
        found.head?.any (QwedA2A.wordChar isAlnum) = true := by
  have hbuiltins : ∀ rest, StartsWord isAlnum (PyChar.ofChar 'b' :: rest) :=
    startsWord_letter halnum (by decide) (by decide) (by decide) (by decide)
  have hos : ∀ rest, StartsWord isAlnum (PyChar.ofChar 'o' :: rest) :=
    startsWord_letter halnum (by decide) (by decide) (by decide) (by decide)
  intro shape hshape hword found hfound
  simp only [dangerousShapes, shapesByPattern, List.flatten_cons, List.flatten_nil,
    List.cons_append, List.nil_append, List.append_nil, List.mem_cons,
    List.not_mem_nil, or_false] at hshape
  rcases hshape with rfl | rfl | rfl | rfl | rfl | rfl | rfl | rfl
  · cases hword
  · cases hword
  · exact head_of_startsWord (startsWord_underscore halnum _) hfound
  · exact head_of_startsWord (hbuiltins _) hfound
  · cases hword
  · cases hword
  · exact head_of_startsWord (hos _) hfound
  · exact head_of_startsWord (hos _) hfound

theorem Shape.OccursIn.within (halnum : AsciiAlnum isAlnum) {shape : Shape}
    (hshape : shape ∈ dangerousShapes) {code : PyStr} (h : shape.OccursIn isAlnum code)
    {before : PyStr}
    (hbefore : before.getLast?.any (QwedA2A.wordChar isAlnum) = true →
      code.head?.any (QwedA2A.wordChar isAlnum) = false) (after : PyStr) :
    shape.OccursIn isAlnum (before ++ code ++ after) := by
  rw [Shape.occursIn_iff] at h ⊢
  split_ifs at h ⊢ with hword
  · exact h.within (dangerousShapes_start halnum shape hshape hword) hbefore after
  · exact Occurs.within h before after

end Hiding

/-- Threats are not hidden by writing ASCII letters in the other case, nor by more code
around the code, unless it makes one word with its beginning. -/
theorem regex_threats_not_hidden (isAlnum : PyChar → Bool)
    (halnum : AsciiAlnum isAlnum) :
    (∀ code code', List.Forall₂ SameLetter code code' →
      scanRegexThreats isAlnum code = scanRegexThreats isAlnum code') ∧
    ∀ code before after, (before.getLast?.any (wordChar isAlnum) = true →
        code.head?.any (wordChar isAlnum) = false) →
      scanRegexThreats isAlnum code ⊆
        scanRegexThreats isAlnum (before ++ code ++ after) := by
  refine ⟨fun code code' => scanRegexThreats_of_sameLetters halnum,
    fun code before after hbefore label hlabel => ?_⟩
  rw [mem_scanRegexThreats halnum] at hlabel ⊢
  obtain ⟨shape, hshape, hname, hoccurs⟩ := hlabel
  exact ⟨shape, hshape, hname, hoccurs.within halnum hshape hbefore after⟩

theorem regex_threats_not_hidden_system :
    scanRegexThreats Reference.isAlnum (py " os.system('x')") ⊆
      scanRegexThreats Reference.isAlnum (py "return os.system('x')#") :=
  (regex_threats_not_hidden Reference.isAlnum Reference.asciiAlnum).2
    (py " os.system('x')") (py "return") (py "#") (by decide)

/-- Code with a regex threat is blocked, or its analysis raises. -/
theorem verifyCode_of_regex_threat {Tree : Type} {analysis : CodeAnalysis Tree}
    {payload : PyDict} {code : PyStr} {result : EngineResult}
    (hcode : dictGet payload (py "code") = some (.str code)) (hne : code ≠ [])
    (hthreat : analysis.scanRegexThreats code ≠ [])
    (h : verifyCode analysis payload = .ok result) :
    result.verified = false ∧ result.status = none := by
  have htruthy : (PyVal.str code).truthy = true := by
    simp [PyVal.truthy, hne]
  rw [verifyCode, hcode, Option.getD_some, if_neg (by simp [htruthy])] at h
  dsimp only at h
  split_ifs at h with hlarge
  · cases h
    exact ⟨rfl, rfl⟩
  · split at h
    next exc _ =>
      split_ifs at h
      cases h
      exact ⟨rfl, rfl⟩
    next tree _ =>
      cases h
      rw [scanCode]
      split_ifs
      exact ⟨rfl, rfl⟩
      exact ⟨rfl, rfl⟩

/-- The receiver may act on the message, or may check it and then act. -/
def VerdictStatus.passes (status : VerdictStatus) : Prop :=
  status = .verified ∨ status = .heuristicPass

namespace Interceptor

variable {Token Tree : Type} {interceptor : Interceptor Token Tree}
  {message : AgentMessage}

theorem engineDraft_not_passes {result : EngineResult}
    (hverified : result.verified = false)
    (hstatus : result.status ≠ some (py "heuristic_pass")) :
    ¬ (engineDraft message result).status.passes := by
  rw [engineDraft, if_neg hstatus, hverified, if_neg Bool.false_ne_true]
  split_ifs <;> simp [VerdictStatus.passes]

theorem runDraft_not_passes
    (h : ∀ result, interceptor.routeToEngine message = .ok result →
      result.verified = false ∧ result.status ≠ some (py "heuristic_pass"))
    (pool : PoolOutcome) :
    ¬ (interceptor.runDraft message
      (interceptor.runEngine message pool)).status.passes := by
  cases hend : interceptor.runEngine message pool with
  | result result =>
      cases pool with
      | finishes =>
          cases hroute : interceptor.routeToEngine message with
          | error exc =>
              simp only [runEngine, hroute] at hend
              cases hend
          | ok found =>
              simp only [runEngine, hroute] at hend
              cases hend
              obtain ⟨hverified, hstatus⟩ := h _ hroute
              exact engineDraft_not_passes hverified hstatus
      | noSlot => cases hend
      | submitRaises exc => cases hend
      | budgetExpires ended =>
          cases ended with
          | false => cases hend
          | true =>
              cases hroute : interceptor.routeToEngine message with
              | error exc =>
                  simp only [runEngine, hroute] at hend
                  cases hend
              | ok found =>
                  simp only [runEngine, hroute] at hend
                  cases hend
  | timeout => simp [runDraft, VerdictStatus.passes]
  | busy => simp [runDraft, VerdictStatus.passes]
  | raised exc => simp [runDraft, VerdictStatus.passes]

/-- What does not pass the engines does not pass at all. -/
theorem draft_not_passes
    (h : ∀ result, interceptor.routeToEngine message = .ok result →
      result.verified = false ∧ result.status ≠ some (py "heuristic_pass"))
    {tb : TrustBoundary} {clock : TrustBoundary.Clock} {pool : PoolOutcome}
    {draft : Draft} (hdraft : (interceptor.draft tb message clock pool).1 = .ok draft) :
    ¬ draft.status.passes := by
  rw [Interceptor.draft] at hdraft
  split at hdraft
  next exc _ =>
    split_ifs at hdraft
    cases hdraft
    simp [VerdictStatus.passes]
  next size _ =>
    split_ifs at hdraft
    · cases hdraft
      simp [VerdictStatus.passes]
    · split at hdraft
      next =>
        cases hdraft
        simp [VerdictStatus.passes]
      next =>
        cases hdraft
        exact runDraft_not_passes h pool

end Interceptor

theorem WrittenAs.ne_nil {c : PyChar} {token text : PyStr} {pieces : List Piece}
    (h : WrittenAs (.token (c :: token) :: pieces) text) : text ≠ [] := by
  obtain ⟨part, later, rfl, hpart, _⟩ := h
  obtain ⟨d, rest, _, _, rfl⟩ := List.forall₂_cons_left_iff.mp hpart
  exact List.cons_ne_nil _ _

theorem Shape.OccursIn.ne_nil {isAlnum : PyChar → Bool} {shape : Shape} {code : PyStr}
    (hshape : shape ∈ dangerousShapes) (h : shape.OccursIn isAlnum code) :
    code ≠ [] := by
  obtain ⟨prior, found, later, rfl, hfound, _⟩ := h
  have hne : found ≠ [] := by
    simp only [dangerousShapes, shapesByPattern, List.flatten_cons, List.flatten_nil,
      List.cons_append, List.nil_append, List.append_nil, List.mem_cons,
      List.not_mem_nil, or_false] at hshape
    rcases hshape with rfl | rfl | rfl | rfl | rfl | rfl | rfl | rfl <;>
      exact hfound.ne_nil
  simp [hne]

/-- A code payload that spells a dangerous shape is never admitted: whatever the
parser makes of it, whether or not code is verified at all, and whatever the boundary
and the engines do, its verdict is neither VERIFIED nor HEURISTIC_PASS. -/
theorem dangerous_spelling_not_passed {Token Tree : Type}
    (interceptor : Interceptor Token Tree) (isAlnum : PyChar → Bool)
    (halnum : AsciiAlnum isAlnum)
    (hscan : interceptor.code.scanRegexThreats = scanRegexThreats isAlnum)
    (message : AgentMessage) (hcodeType : message.payloadType = .codeExecution)
    (code : PyStr) (hcode : dictGet message.payload (py "code") = some (.str code))
    (shape : Shape) (hshape : shape ∈ dangerousShapes)
    (hoccurs : shape.OccursIn isAlnum code) (tb : TrustBoundary) (traceId : PyStr)
    (clock : TrustBoundary.Clock) (pool : PoolOutcome)
    (verdict : VerificationVerdict Token)
    (hverdict : (interceptor.intercept tb message traceId clock pool).1 = .ok verdict) :
    verdict.status ≠ .verified ∧ verdict.status ≠ .heuristicPass := by
  have hthreat : interceptor.code.scanRegexThreats code ≠ [] := by
    rw [hscan]
    refine List.ne_nil_of_mem (a := shape.label) ?_
    rw [mem_scanRegexThreats halnum]
    exact ⟨shape, hshape, rfl, hoccurs⟩
  obtain ⟨draft, hdraft, hbuild⟩ := Interceptor.intercept_ok hverdict
  have hpasses : ¬ draft.status.passes := by
    apply Interceptor.draft_not_passes _ hdraft
    intro result hroute
    simp only [Interceptor.routeToEngine, hcodeType, reduceCtorEq, false_and,
      if_false, true_and] at hroute
    split_ifs at hroute with henabled
    · obtain ⟨hverified, hstatus⟩ :=
        verifyCode_of_regex_threat hcode (hoccurs.ne_nil hshape) hthreat hroute
      exact ⟨hverified, by rw [hstatus]; simp⟩
    · cases hroute
      exact ⟨rfl, by decide⟩
  rw [(Interceptor.buildVerdict_ok hbuild).1]
  exact ⟨fun h => hpasses (Or.inl h), fun h => hpasses (Or.inr h)⟩

namespace Reference

def codeInterceptor : Interceptor SignedToken Unit :=
  { interceptor with
    config := interceptor.config
    code :=
      { parse := fun _ => .ok ()
        scanAstThreats := fun _ => []
        scanRegexThreats := scanRegexThreats isAlnum } }

def codeMessage : AgentMessage where
  senderAgentId := py "a"
  receiverAgentId := py "b"
  payloadType := .codeExecution
  payload := [(.str (py "code"), .str (py "OS.System ('x')"))]
  stringKeys := by simp

end Reference

theorem dangerous_spelling_not_passed_system :
    ∃ verdict, (Reference.codeInterceptor.intercept { defaultAllow := true }
        Reference.codeMessage (py "t") ⟨0, 0, 0⟩ .finishes).1 = .ok verdict ∧
      verdict.status ≠ .verified ∧ verdict.status ≠ .heuristicPass := by
  have hthreat : py "os_system" ∈
      scanRegexThreats Reference.isAlnum (py "OS.System ('x')") := by
    decide +kernel
  rw [mem_scanRegexThreats Reference.asciiAlnum] at hthreat
  obtain ⟨shape, hshape, _, hoccurs⟩ := hthreat
  have hreturns : (Reference.codeInterceptor.intercept { defaultAllow := true }
      Reference.codeMessage (py "t") ⟨0, 0, 0⟩ .finishes).1.toBool = true := by
    decide +kernel
  cases hverdict : (Reference.codeInterceptor.intercept { defaultAllow := true }
      Reference.codeMessage (py "t") ⟨0, 0, 0⟩ .finishes).1 with
  | error exc =>
      rw [hverdict] at hreturns
      cases hreturns
  | ok verdict =>
      exact ⟨verdict, rfl, dangerous_spelling_not_passed Reference.codeInterceptor
        Reference.isAlnum Reference.asciiAlnum rfl Reference.codeMessage rfl
        (py "OS.System ('x')") rfl shape hshape hoccurs { defaultAllow := true }
        (py "t") ⟨0, 0, 0⟩ .finishes verdict hverdict⟩

end QwedA2A
