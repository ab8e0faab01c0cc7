/-
The comparison key of a claim does not see invisible characters.  Both paths of
the normalizer are one function of the visible text, so a text may change its
path and keep its key.
-/
import QwedA2A.LogicGuard

namespace QwedA2A

/-- The second list is the first with elements of one kind put in anywhere. -/
inductive Inserted {α : Type} (kind : α → Prop) : List α → List α → Prop
  | nil : Inserted kind [] []
  | keep (a : α) {xs ys : List α} :
      Inserted kind xs ys → Inserted kind (a :: xs) (a :: ys)
  | insert (a : α) {xs ys : List α} :
      kind a → Inserted kind xs ys → Inserted kind xs (a :: ys)

/-- A filter that drops the kind does not see what was put in. -/
theorem Inserted.filter_eq {α : Type} {kind : α → Prop} {xs ys : List α}
    (h : Inserted kind xs ys) (keep : α → Bool)
    (hkind : ∀ a, kind a → keep a = false) : ys.filter keep = xs.filter keep := by
  induction h with
  | nil => rfl
  | keep a _ ih => rw [List.filter_cons, List.filter_cons, ih]
  | insert a ha _ ih => rw [List.filter_cons_of_neg (by simp [hkind a ha]), ih]

section Visible

variable (ud : UnicodeData)

/-- Characters that the normalizer drops: category Cf, the listed
default-ignorables, and control characters other than white space. -/
def invisible (c : PyChar) : Bool :=
  ud.isFormat c || ignorableNonCf c || (isControl c && !c.isSpace)

def unicodePath (claim : PyStr) : PyStr :=
  let text := claim.filter fun c => !ignorableNonCf c
  let text := text.filter fun c =>
    !(ud.isFormat c || (isControl c && !c.isSpace))
  joinWith (py " ") (splitWords (ud.nfkc (ud.casefold (ud.nfkc text))))

def visibleKey (text : PyStr) : PyStr :=
  joinWith (py " ") (splitWords (ud.nfkc (ud.casefold (ud.nfkc text))))

end Visible

/-- What the Unicode tables say about ASCII: it has no format character, NFKC is
the identity on it and casefold is lower. -/
structure UnicodeData.AsciiTables (ud : UnicodeData) : Prop where
  format : ∀ c : PyChar, c.val < 0x80 → ud.isFormat c = false
  nfkc : ∀ text, IsAscii text → ud.nfkc text = text
  casefold : ∀ text, IsAscii text → ud.casefold text = text.map lowerAscii

theorem unicodePath_eq (ud : UnicodeData) (claim : PyStr) :
    unicodePath ud claim = visibleKey ud (claim.filter fun c => !invisible ud c) := by
  have hfilter : (claim.filter fun c => !ignorableNonCf c).filter
      (fun c => !(ud.isFormat c || (isControl c && !c.isSpace))) =
      claim.filter fun c => !invisible ud c := by
    rw [List.filter_filter]
    refine List.filter_congr fun c _ => ?_
    simp only [invisible, Bool.not_or]
    ac_rfl
  rw [unicodePath, hfilter, visibleKey]

theorem lowerAscii_lt {c : PyChar} (hc : c.val < 0x80) : (lowerAscii c).val < 0x80 := by
  rw [lowerAscii]
  split_ifs with hupper
  · rw [Fin.val_ofNat, Nat.mod_eq_of_lt (by omega)]
    omega
  · exact hc

theorem isAscii_map_lowerAscii {text : PyStr} (h : IsAscii text) :
    IsAscii (text.map lowerAscii) := by
  intro c hc
  obtain ⟨d, hd, rfl⟩ := List.mem_map.mp hc
  exact lowerAscii_lt (h d hd)

/-- The fast path's table is the ASCII part of what the Unicode path drops. -/
theorem invisible_ascii {ud : UnicodeData} (hud : ud.AsciiTables) {c : PyChar}
    (hc : c.val < 0x80) : invisible ud c = asciiInvisible c := by
  have hlisted : ignorableNonCf c = false := by
    simp only [ignorableNonCf, Bool.or_eq_false_iff, beq_eq_false_iff_ne,
      Bool.and_eq_false_iff, decide_eq_false_iff_not]
    omega
  rw [invisible, hud.format c hc, hlisted, Bool.false_or, Bool.false_or,
    Bool.eq_iff_iff]
  simp only [isControl, asciiInvisible, PyChar.isSpace, Bool.and_eq_true,
    Bool.not_eq_true', Bool.or_eq_false_iff, Bool.and_eq_false_iff,
    decide_eq_true_eq, decide_eq_false_iff_not, beq_eq_false_iff_ne]
  omega

theorem filter_visible_ascii {ud : UnicodeData} (hud : ud.AsciiTables) {text : PyStr}
    (h : IsAscii text) :
    text.filter (fun c => !invisible ud c) = text.filter fun c => !asciiInvisible c :=
  List.filter_congr fun c hc => by rw [invisible_ascii hud (h c hc)]

/-- Printable ASCII holds nothing that the table drops. -/
theorem filter_of_printable {claim : PyStr}
    (h : (claim.all fun c => 0x20 ≤ c.val && c.val ≤ 0x7E) = true) :
    claim.filter (fun c => !asciiInvisible c) = claim := by
  rw [List.filter_eq_self]
  intro c hc
  have hrange := List.all_eq_true.mp h c hc
  simp only [Bool.and_eq_true, decide_eq_true_eq] at hrange
  simp only [asciiInvisible, Bool.not_eq_true', decide_eq_false_iff_not]
  omega

/-- On visible ASCII the whole pipeline is lower and split. -/
theorem visibleKey_ascii {ud : UnicodeData} (hud : ud.AsciiTables) {text : PyStr}
    (h : IsAscii text) :
    visibleKey ud text = joinWith (py " ") (splitWords (text.map lowerAscii)) := by
  rw [visibleKey, hud.nfkc text h, hud.casefold text h,
    hud.nfkc _ (isAscii_map_lowerAscii h)]

/-- The two paths agree wherever both could be taken. -/
theorem normalizeClaim_eq {ud : UnicodeData} (hud : ud.AsciiTables) (claim : PyStr) :
    normalizeClaim ud claim = unicodePath ud claim := by
  rw [normalizeClaim]
  split_ifs with hascii hprintable
  · have h : IsAscii claim := by simpa [IsAscii] using hascii
    rw [unicodePath_eq, filter_visible_ascii hud h,
      filter_of_printable hprintable, visibleKey_ascii hud h]
  · have h : IsAscii claim := by simpa [IsAscii] using hascii
    rw [unicodePath_eq, filter_visible_ascii hud h,
      visibleKey_ascii hud fun c hc => h c (List.mem_of_mem_filter hc)]
  · rfl

/-- Inserting invisible characters anywhere leaves a claim's key as it was, also
where the claim moves from the ASCII path to the Unicode path. -/
theorem normalizeClaim_invisible_insertions (ud : UnicodeData) (hud : ud.AsciiTables) :
    (∀ claim claim' : PyStr,
        Inserted (fun c => invisible ud c = true) claim claim' →
          normalizeClaim ud claim' = normalizeClaim ud claim) ∧
      ∀ claim, normalizeClaim ud claim = unicodePath ud claim := by
  refine ⟨fun claim claim' h => ?_, normalizeClaim_eq hud⟩
  have hsame := h.filter_eq (fun c => !invisible ud c) (by simp)
  rw [normalizeClaim_eq hud, normalizeClaim_eq hud, unicodePath_eq, unicodePath_eq,
    hsame]

def asciiTables : UnicodeData where
  isFormat c := c.val = 0x200B
  isPrintable c := decide (0x20 ≤ c.val ∧ c.val < 0x7F)
  nfkc := id
  casefold := List.map lowerAscii

theorem asciiTables_lawful : asciiTables.AsciiTables where
  format c hc := by simp only [asciiTables, decide_eq_false_iff_not]; omega
  nfkc _ _ := rfl
  casefold _ _ := rfl

/-- "Pay" with a zero-width space in it has left the ASCII path. -/
theorem normalizeClaim_invisible_insertions_pay :
    normalizeClaim asciiTables (py "Pa" ++ [0x200B] ++ py "y") =
        normalizeClaim asciiTables (py "Pay") ∧
      normalizeClaim asciiTables (py "Pay") = unicodePath asciiTables (py "Pay") :=
  have h := normalizeClaim_invisible_insertions asciiTables asciiTables_lawful
  ⟨h.1 _ _ (.keep _ (.keep _ (.insert _ (by decide) (.keep _ .nil)))), h.2 _⟩

end QwedA2A
