/-
Regular patterns with word boundaries, and searching for them.  A match runs from
one cut of the text to another; the matcher lists the cuts a match can end at.  What
a pattern without boundaries matches is its language, wherever it stands.
-/
import Mathlib.Computability.Language
import Mathlib.Tactic

namespace TextPattern

universe u

variable {α : Type u}

inductive Pattern (α : Type u) where
  | empty
  | one (set : α → Bool)
  | boundary
  | seq (first second : Pattern α)
  | alt (left right : Pattern α)
  | star (body : Pattern α)

/-- A place in a text: what stands right before it, if anything, and the rest. -/
structure Cut (α : Type u) where
  before : Option α
  rest : List α

def Cut.isBoundary (word : α → Bool) (cut : Cut α) : Bool :=
  cut.before.any word != cut.rest.head?.any word

def Cut.past (cut : Cut α) (matched rest : List α) : Cut α :=
  ⟨matched.getLast?.or cut.before, rest⟩

/-- The pattern matches what stands between two cuts of one text. -/
inductive Matches (word : α → Bool) : Pattern α → Cut α → Cut α → Prop
  | empty (cut : Cut α) : Matches word .empty cut cut
  | one {set : α → Bool} (before : Option α) {a : α} (rest : List α)
      (h : set a = true) :
      Matches word (.one set) ⟨before, a :: rest⟩ ⟨some a, rest⟩
  | boundary {cut : Cut α} (h : cut.isBoundary word = true) :
      Matches word .boundary cut cut
  | seq {first second : Pattern α} {start mid stop : Cut α}
      (h : Matches word first start mid) (h' : Matches word second mid stop) :
      Matches word (.seq first second) start stop
  | left {left : Pattern α} (right : Pattern α) {start stop : Cut α}
      (h : Matches word left start stop) : Matches word (.alt left right) start stop
  | right (left : Pattern α) {right : Pattern α} {start stop : Cut α}
      (h : Matches word right start stop) : Matches word (.alt left right) start stop
  | stop (body : Pattern α) (cut : Cut α) : Matches word (.star body) cut cut
  | more {body : Pattern α} {start mid stop : Cut α} (h : Matches word body start mid)
      (h' : Matches word (.star body) mid stop) :
      Matches word (.star body) start stop

/-- The cuts that repetitions can end at; only repetitions that read something
count, and there are no more of these than characters. -/
def repeats (body : Cut α → List (Cut α)) : ℕ → Cut α → List (Cut α)
  | 0, cut => [cut]
  | fuel + 1, cut => cut :: (body cut).flatMap fun next =>
      if next.rest.length < cut.rest.length then repeats body fuel next else []

def run (word : α → Bool) : Pattern α → Cut α → List (Cut α)
  | .empty => fun cut => [cut]
  | .one set => fun cut =>
      match cut.rest with
      | [] => []
      | a :: rest => if set a then [⟨some a, rest⟩] else []
  | .boundary => fun cut => if cut.isBoundary word then [cut] else []
  | .seq first second => fun cut => (run word first cut).flatMap (run word second)
  | .alt left right => fun cut => run word left cut ++ run word right cut
  | .star body => fun cut => repeats (run word body) cut.rest.length cut

def searchFrom (word : α → Bool) (pattern : Pattern α) : Option α → List α → Bool
  | before, [] => !(run word pattern ⟨before, []⟩).isEmpty
  | before, a :: rest => !(run word pattern ⟨before, a :: rest⟩).isEmpty ||
      searchFrom word pattern (some a) rest

def search (word : α → Bool) (pattern : Pattern α) (text : List α) : Bool :=
  searchFrom word pattern none text

section Matcher

variable {word : α → Bool} {pattern body : Pattern α} {start stop : Cut α}

theorem Matches.progress (h : Matches word pattern start stop) :
    stop = start ∨ stop.rest.length < start.rest.length := by
  induction h with
  | empty cut => exact Or.inl rfl
  | one before rest h => exact Or.inr (Nat.lt_succ_self _)
  | boundary h => exact Or.inl rfl
  | seq _ _ ih ih' =>
      rcases ih' with rfl | hlater
      · exact ih
      · rcases ih with rfl | hearlier
        · exact Or.inr hlater
        · exact Or.inr (hlater.trans hearlier)
  | left right _ ih => exact ih
  | right left _ ih => exact ih
  | stop body cut => exact Or.inl rfl
  | more _ _ ih ih' =>
      rcases ih' with rfl | hlater
      · exact ih
      · rcases ih with rfl | hearlier
        · exact Or.inr hlater
        · exact Or.inr (hlater.trans hearlier)

theorem matches_star_of_mem_repeats {step : Cut α → List (Cut α)}
    (hstep : ∀ start stop, stop ∈ step start → Matches word body start stop)
    (fuel : ℕ) (h : stop ∈ repeats step fuel start) :
    Matches word (.star body) start stop := by
  induction fuel generalizing start with
  | zero =>
      cases List.mem_singleton.mp h
      exact .stop body stop
  | succ fuel ih =>
      rw [repeats, List.mem_cons, List.mem_flatMap] at h
      rcases h with rfl | ⟨next, hnext, hlater⟩
      · exact .stop body stop
      · split_ifs at hlater
        · exact .more (hstep start next hnext) (ih hlater)
        · cases hlater

/-- The induction is on the repetitions; one that reads nothing is left out. -/
theorem mem_repeats_of_matches {step : Cut α → List (Cut α)}
    (hstep : ∀ start stop, Matches word body start stop → stop ∈ step start)
    (h : Matches word (.star body) start stop) (fuel : ℕ)
    (hfuel : start.rest.length ≤ fuel) : stop ∈ repeats step fuel start := by
  generalize hpattern : Pattern.star body = pattern at h
  induction h generalizing fuel with
  | stop other cut =>
      cases fuel with
      | zero => exact List.mem_singleton_self cut
      | succ fuel => exact List.mem_cons_self
  | more hbody _ _ ih =>
      cases hpattern
      rcases hbody.progress with rfl | hread
      · exact ih fuel hfuel rfl
      · cases fuel with
        | zero => omega
        | succ fuel =>
            rw [repeats, List.mem_cons, List.mem_flatMap]
            refine Or.inr ⟨_, hstep _ _ hbody, ?_⟩
            rw [if_pos hread]
            exact ih fuel (by omega) rfl
  | _ => cases hpattern

theorem mem_run : stop ∈ run word pattern start ↔ Matches word pattern start stop := by
  induction pattern generalizing start stop with
  | empty =>
      rw [run, List.mem_singleton]
      constructor
      · rintro rfl
        exact .empty stop
      · intro h
        cases h
        rfl
  | one set =>
      rw [run]
      constructor
      · intro h
        obtain ⟨before, rest⟩ := start
        cases rest with
        | nil => cases h
        | cons a rest =>
            dsimp only at h
            split_ifs at h with hset
            · cases List.mem_singleton.mp h
              exact .one before rest hset
            · cases h
      · intro h
        cases h with
        | one before rest hset => simp [hset]
  | boundary =>
      rw [run]
      constructor
      · intro h
        dsimp only at h
        split_ifs at h with hboundary
        · cases List.mem_singleton.mp h
          exact .boundary hboundary
        · cases h
      · intro h
        cases h with
        | boundary hboundary => simp [hboundary]
  | seq first second ih ih' =>
      rw [run, List.mem_flatMap]
      constructor
      · rintro ⟨mid, hmid, hstop⟩
        exact .seq (ih.mp hmid) (ih'.mp hstop)
      · intro h
        cases h with
        | seq hmid hstop => exact ⟨_, ih.mpr hmid, ih'.mpr hstop⟩
  | alt left right ih ih' =>
      rw [run, List.mem_append, ih, ih']
      constructor
      · rintro (h | h)
        · exact .left right h
        · exact .right left h
      · intro h
        cases h with
        | left _ h => exact Or.inl h
        | right _ h => exact Or.inr h
  | star body ih =>
      rw [run]
      constructor
      · exact matches_star_of_mem_repeats (fun _ _ => ih.mp) _
      · exact fun h => mem_repeats_of_matches (fun _ _ => ih.mpr) h _ le_rfl

theorem run_nonempty_iff :
    (!(run word pattern start).isEmpty) = true ↔
      ∃ stop, Matches word pattern start stop := by
  rw [Bool.not_eq_true', List.isEmpty_eq_false_iff]
  constructor
  · intro h
    obtain ⟨stop, hstop⟩ := List.exists_mem_of_ne_nil _ h
    exact ⟨stop, mem_run.mp hstop⟩
  · rintro ⟨stop, h⟩
    exact List.ne_nil_of_mem (mem_run.mpr h)

theorem searchFrom_iff {before : Option α} {text : List α} :
    searchFrom word pattern before text = true ↔
      ∃ prior rest stop, text = prior ++ rest ∧
        Matches word pattern (Cut.past ⟨before, text⟩ prior rest) stop := by
  induction text generalizing before with
  | nil =>
      rw [searchFrom, run_nonempty_iff]
      constructor
      · rintro ⟨stop, h⟩
        exact ⟨[], [], stop, rfl, h⟩
      · rintro ⟨prior, rest, stop, htext, h⟩
        obtain ⟨rfl, rfl⟩ := List.append_eq_nil_iff.mp htext.symm
        exact ⟨stop, h⟩
  | cons a text ih =>
      rw [searchFrom, Bool.or_eq_true, run_nonempty_iff, ih]
      have hpast : ∀ prior rest, Cut.past ⟨some a, text⟩ prior rest =
          Cut.past ⟨before, a :: text⟩ (a :: prior) rest := by
        intro prior rest
        cases hlast : prior.getLast? with
        | none => simp [Cut.past, List.getLast?_cons, hlast]
        | some last => simp [Cut.past, List.getLast?_cons, hlast]
      constructor
      · rintro (⟨stop, h⟩ | ⟨prior, rest, stop, rfl, h⟩)
        · exact ⟨[], a :: text, stop, rfl, h⟩
        · exact ⟨a :: prior, rest, stop, rfl, hpast prior rest ▸ h⟩
      · rintro ⟨prior, rest, stop, htext, h⟩
        cases prior with
        | nil =>
            rw [List.nil_append] at htext
            subst htext
            exact Or.inl ⟨stop, h⟩
        | cons head prior =>
            rw [List.cons_append, List.cons.injEq] at htext
            obtain ⟨rfl, rfl⟩ := htext
            exact Or.inr ⟨prior, rest, stop, rfl, hpast prior rest ▸ h⟩

/-- The search succeeds exactly when the pattern matches at some cut of the text. -/
theorem search_iff {text : List α} :
    search word pattern text = true ↔
      ∃ prior rest stop, text = prior ++ rest ∧
        Matches word pattern ⟨prior.getLast?, rest⟩ stop := by
  rw [search, searchFrom_iff]
  simp only [Cut.past, Option.or_none]

end Matcher

/-- The texts that a pattern can match, boundaries aside. -/
def Pattern.language : Pattern α → Language α
  | .empty => 1
  | .one set => {text | ∃ a, set a = true ∧ text = [a]}
  | .boundary => 1
  | .seq first second => first.language * second.language
  | .alt left right => left.language + right.language
  | .star body => KStar.kstar body.language

def Pattern.plain : Pattern α → Bool
  | .empty => true
  | .one _ => true
  | .boundary => false
  | .seq first second => first.plain && second.plain
  | .alt left right => left.plain && right.plain
  | .star body => body.plain

@[simp] theorem Cut.past_nil (cut : Cut α) : cut.past [] cut.rest = cut := rfl

theorem Cut.past_past (cut : Cut α) (first second middle rest : List α) :
    (cut.past first middle).past second rest = cut.past (first ++ second) rest := by
  simp only [past, List.getLast?_append, Option.or_assoc]

section Languages

variable {word : α → Bool} {pattern : Pattern α} {start stop : Cut α}

theorem append_mem_kstar {l : Language α} {first second : List α} (h : first ∈ l)
    (h' : second ∈ KStar.kstar l) : first ++ second ∈ KStar.kstar l := by
  rw [← Language.one_add_self_mul_kstar_eq_kstar]
  exact Or.inr (Language.append_mem_mul h h')

theorem Matches.mem_language (h : Matches word pattern start stop) :
    ∃ text ∈ pattern.language, start.rest = text ++ stop.rest ∧
      stop = start.past text stop.rest := by
  have hjoin : ∀ {l l' : Language α} {start mid stop : Cut α},
      (∃ text ∈ l, start.rest = text ++ mid.rest ∧ mid = start.past text mid.rest) →
      (∃ text ∈ l', mid.rest = text ++ stop.rest ∧ stop = mid.past text stop.rest) →
        ∃ first ∈ l, ∃ second ∈ l', start.rest = first ++ second ++ stop.rest ∧
          stop = start.past (first ++ second) stop.rest := by
    rintro l l' start mid stop ⟨first, hfirst, hrest, hmid⟩ ⟨second, hsecond, hrest', hstop⟩
    refine ⟨first, hfirst, second, hsecond, ?_, ?_⟩
    · rw [hrest, hrest', List.append_assoc]
    · rw [← Cut.past_past start first second mid.rest, ← hmid]
      exact hstop
  induction h with
  | empty cut => exact ⟨[], Language.nil_mem_one, rfl, rfl⟩
  | one before rest h => exact ⟨[_], ⟨_, h, rfl⟩, rfl, rfl⟩
  | boundary h => exact ⟨[], Language.nil_mem_one, rfl, rfl⟩
  | seq _ _ ih ih' =>
      obtain ⟨first, hfirst, second, hsecond, hread⟩ := hjoin ih ih'
      exact ⟨first ++ second, Language.append_mem_mul hfirst hsecond, hread⟩
  | left right _ ih =>
      obtain ⟨text, htext, hread⟩ := ih
      exact ⟨text, Or.inl htext, hread⟩
  | right left _ ih =>
      obtain ⟨text, htext, hread⟩ := ih
      exact ⟨text, Or.inr htext, hread⟩
  | stop body cut => exact ⟨[], Language.nil_mem_kstar _, rfl, rfl⟩
  | more _ _ ih ih' =>
      obtain ⟨first, hfirst, second, hsecond, hread⟩ := hjoin ih ih'
      exact ⟨first ++ second, append_mem_kstar hfirst hsecond, hread⟩

/-- Without boundaries a text of the language is matched wherever it stands. -/
theorem matches_of_mem_language (hplain : pattern.plain = true) {text rest : List α}
    (h : text ∈ pattern.language) (hrest : start.rest = text ++ rest) :
    Matches word pattern start (start.past text rest) := by
  induction pattern generalizing start text rest with
  | empty =>
      cases h
      rw [List.nil_append] at hrest
      subst hrest
      exact .empty start
  | one set =>
      obtain ⟨a, hset, rfl⟩ := h
      obtain ⟨before, all⟩ := start
      cases hrest
      exact .one before rest hset
  | boundary => cases hplain
  | seq first second ih ih' =>
      rw [Pattern.plain, Bool.and_eq_true] at hplain
      obtain ⟨head, hhead, tail, htail, rfl⟩ := h
      rw [List.append_assoc] at hrest
      rw [← Cut.past_past start head tail (tail ++ rest)]
      exact .seq (ih hplain.1 hhead hrest) (ih' hplain.2 htail rfl)
  | alt left right ih ih' =>
      rw [Pattern.plain, Bool.and_eq_true] at hplain
      rcases h with hleft | hright
      · exact .left right (ih hplain.1 hleft hrest)
      · exact .right left (ih' hplain.2 hright hrest)
  | star body ih =>
      obtain ⟨parts, rfl, hparts⟩ := Language.mem_kstar.mp h
      induction parts generalizing start with
      | nil =>
          rw [List.flatten_nil, List.nil_append] at hrest
          subst hrest
          exact .stop body start
      | cons part parts ihparts =>
          rw [List.flatten_cons, List.append_assoc] at hrest
          rw [List.flatten_cons, ← Cut.past_past start part _ (parts.flatten ++ rest)]
          refine .more (ih hplain (hparts part List.mem_cons_self) hrest) ?_
          have hlater : ∀ other ∈ parts, other ∈ body.language := fun other hother =>
            hparts other (List.mem_cons_of_mem part hother)
          exact ihparts hlater (Language.mem_kstar.mpr ⟨parts, rfl, hlater⟩) rfl

/-- A text of the language stands somewhere in the text. -/
def Occurs (l : Language α) (text : List α) : Prop :=
  ∃ prior found later, text = prior ++ found ++ later ∧ found ∈ l

/-- A text of the language stands somewhere in the text, not behind a word
character. -/
def OccursAtWord (word : α → Bool) (l : Language α) (text : List α) : Prop :=
  ∃ prior found later, text = prior ++ found ++ later ∧ found ∈ l ∧
    prior.getLast?.any word = false

/-- A pattern without boundaries is found where a text of its language stands. -/
theorem search_plain_iff (hplain : pattern.plain = true) {text : List α} :
    search word pattern text = true ↔ Occurs pattern.language text := by
  rw [search_iff]
  constructor
  · rintro ⟨prior, rest, stop, rfl, h⟩
    obtain ⟨found, hfound, hrest, _⟩ := h.mem_language
    dsimp only at hrest
    exact ⟨prior, found, stop.rest, by rw [hrest, List.append_assoc], hfound⟩
  · rintro ⟨prior, found, later, rfl, hfound⟩
    exact ⟨prior, found ++ later, _, List.append_assoc _ _ _,
      matches_of_mem_language hplain hfound rfl⟩

/-- Behind a boundary it is found where such a text begins a word, if its texts all
begin with a word character. -/
theorem search_boundary_iff (hplain : pattern.plain = true)
    (hword : ∀ text ∈ pattern.language, text.head?.any word = true)
    {text : List α} :
    search word (.seq .boundary pattern) text = true ↔
      OccursAtWord word pattern.language text := by
  have hstarts : ∀ found ∈ pattern.language, ∀ prior later : List α,
      Cut.isBoundary word ⟨prior.getLast?, found ++ later⟩ = true ↔
        prior.getLast?.any word = false := by
    intro found hfound prior later
    have hhead := hword found hfound
    cases found with
    | nil => cases hhead
    | cons a found =>
        rw [List.head?_cons, Option.any_some] at hhead
        simp [Cut.isBoundary, hhead]
  rw [search_iff]
  constructor
  · rintro ⟨prior, rest, stop, rfl, h⟩
    cases h with
    | seq hboundary hpattern =>
        cases hboundary with
        | boundary hboundary =>
            obtain ⟨found, hfound, hrest, _⟩ := hpattern.mem_language
            dsimp only at hrest
            rw [hrest] at hboundary
            exact ⟨prior, found, stop.rest, by rw [hrest, List.append_assoc], hfound,
              (hstarts found hfound prior stop.rest).mp hboundary⟩
  · rintro ⟨prior, found, later, rfl, hfound, hprior⟩
    exact ⟨prior, found ++ later, _, List.append_assoc _ _ _,
      .seq (.boundary ((hstarts found hfound prior later).mpr hprior))
        (matches_of_mem_language hplain hfound rfl)⟩

end Languages

section Occurrence

variable {word : α → Bool} {l m : Language α} {text : List α}

theorem occurs_add : Occurs (l + m) text ↔ Occurs l text ∨ Occurs m text := by
  constructor
  · rintro ⟨prior, found, later, htext, hleft | hright⟩
    · exact Or.inl ⟨prior, found, later, htext, hleft⟩
    · exact Or.inr ⟨prior, found, later, htext, hright⟩
  · rintro (⟨prior, found, later, htext, h⟩ | ⟨prior, found, later, htext, h⟩)
    · exact ⟨prior, found, later, htext, Or.inl h⟩
    · exact ⟨prior, found, later, htext, Or.inr h⟩

theorem occursAtWord_add : OccursAtWord word (l + m) text ↔
    OccursAtWord word l text ∨ OccursAtWord word m text := by
  constructor
  · rintro ⟨prior, found, later, htext, hleft | hright, hprior⟩
    · exact Or.inl ⟨prior, found, later, htext, hleft, hprior⟩
    · exact Or.inr ⟨prior, found, later, htext, hright, hprior⟩
  · rintro (⟨prior, found, later, htext, h, hprior⟩ |
      ⟨prior, found, later, htext, h, hprior⟩)
    · exact ⟨prior, found, later, htext, Or.inl h, hprior⟩
    · exact ⟨prior, found, later, htext, Or.inr h, hprior⟩

/-- What may be left out at the end need not occur. -/
theorem occurs_mul_of_nil (h : [] ∈ m) : Occurs (l * m) text ↔ Occurs l text := by
  constructor
  · rintro ⟨prior, _, later, rfl, first, hfirst, second, _, rfl⟩
    exact ⟨prior, first, second ++ later, by simp, hfirst⟩
  · rintro ⟨prior, found, later, htext, hfound⟩
    exact ⟨prior, found, later, htext, found, hfound, [], h, List.append_nil found⟩

theorem Occurs.of_mul_left (h : Occurs (l * m) text) : Occurs m text := by
  obtain ⟨prior, _, later, rfl, first, _, second, hsecond, rfl⟩ := h
  exact ⟨prior ++ first, second, later, by simp, hsecond⟩

/-- Text on either side does not hide an occurrence. -/
theorem Occurs.within (h : Occurs l text) (before after : List α) :
    Occurs l (before ++ text ++ after) := by
  obtain ⟨prior, found, later, rfl, hfound⟩ := h
  exact ⟨before ++ prior, found, later ++ after, by simp, hfound⟩

/-- Text on either side does not hide a word, unless it makes one word with the
beginning of the text in between. -/
theorem OccursAtWord.within (h : OccursAtWord word l text)
    (hstarts : ∀ found ∈ l, found.head?.any word = true) {before : List α}
    (hbefore : before.getLast?.any word = true → text.head?.any word = false)
    (after : List α) : OccursAtWord word l (before ++ text ++ after) := by
  obtain ⟨prior, found, later, rfl, hfound, hprior⟩ := h
  refine ⟨before ++ prior, found, later ++ after, by simp, hfound, ?_⟩
  rw [List.getLast?_append]
  cases hlast : prior.getLast? with
  | none =>
      obtain rfl := List.getLast?_eq_none_iff.mp hlast
      have hhead := hstarts found hfound
      cases found with
      | nil => cases hhead
      | cons a found =>
          rw [Option.none_or, Bool.eq_false_iff]
          intro hword
          exact absurd hhead (Bool.eq_false_iff.mp (hbefore hword))
  | some last =>
      rw [hlast] at hprior
      exact hprior

end Occurrence

/-- The pattern's sets do not tell related characters apart. -/
def Pattern.Respects (r : α → α → Prop) : Pattern α → Prop
  | .empty => True
  | .one set => ∀ a b, r a b → set a = set b
  | .boundary => True
  | .seq first second => first.Respects r ∧ second.Respects r
  | .alt left right => left.Respects r ∧ right.Respects r
  | .star body => body.Respects r

section Respecting

variable {word : α → Bool} {r : α → α → Prop}

/-- Cuts of texts that are related character by character. -/
structure SameCut (r : α → α → Prop) (cut cut' : Cut α) : Prop where
  before : Option.Rel r cut.before cut'.before
  rest : List.Forall₂ r cut.rest cut'.rest

theorem any_eq_of_rel (hword : ∀ a b, r a b → word a = word b) {a b : Option α}
    (h : Option.Rel r a b) : a.any word = b.any word := by
  cases h with
  | some h => exact hword _ _ h
  | none => rfl

theorem SameCut.isBoundary (hword : ∀ a b, r a b → word a = word b)
    {cut cut' : Cut α} (h : SameCut r cut cut') :
    cut.isBoundary word = cut'.isBoundary word := by
  have hnext : Option.Rel r cut.rest.head? cut'.rest.head? := by
    have hrest := h.rest
    generalize cut.rest = rest at hrest
    generalize cut'.rest = rest' at hrest
    cases hrest with
    | nil => exact .none
    | cons hhead _ => exact .some hhead
  rw [Cut.isBoundary, Cut.isBoundary, any_eq_of_rel hword h.before,
    any_eq_of_rel hword hnext]

theorem Matches.transport (hword : ∀ a b, r a b → word a = word b)
    {pattern : Pattern α} {start stop start' : Cut α}
    (h : Matches word pattern start stop) (hrespects : pattern.Respects r)
    (hstart : SameCut r start start') :
    ∃ stop', SameCut r stop stop' ∧ Matches word pattern start' stop' := by
  induction h generalizing start' with
  | empty cut => exact ⟨start', hstart, .empty start'⟩
  | one before rest hset =>
      obtain ⟨before', text'⟩ := start'
      obtain ⟨_, hrest⟩ := hstart
      dsimp only at hrest
      cases hrest with
      | cons hhead htail =>
          rw [hrespects _ _ hhead] at hset
          exact ⟨_, ⟨.some hhead, htail⟩, .one before' _ hset⟩
  | boundary hboundary =>
      rw [hstart.isBoundary hword] at hboundary
      exact ⟨start', hstart, .boundary hboundary⟩
  | seq _ _ ih ih' =>
      obtain ⟨mid', hmid, hfirst⟩ := ih hrespects.1 hstart
      obtain ⟨stop', hstop, hsecond⟩ := ih' hrespects.2 hmid
      exact ⟨stop', hstop, .seq hfirst hsecond⟩
  | left right _ ih =>
      obtain ⟨stop', hstop, hleft⟩ := ih hrespects.1 hstart
      exact ⟨stop', hstop, .left right hleft⟩
  | right left _ ih =>
      obtain ⟨stop', hstop, hright⟩ := ih hrespects.2 hstart
      exact ⟨stop', hstop, .right left hright⟩
  | stop body cut => exact ⟨start', hstart, .stop body start'⟩
  | more _ _ ih ih' =>
      obtain ⟨mid', hmid, hbody⟩ := ih hrespects hstart
      obtain ⟨stop', hstop, hmore⟩ := ih' hrespects hmid
      exact ⟨stop', hstop, .more hbody hmore⟩

theorem search_of_related (hword : ∀ a b, r a b → word a = word b)
    {pattern : Pattern α} (hrespects : pattern.Respects r) {text text' : List α}
    (htext : List.Forall₂ r text text') (h : search word pattern text = true) :
    search word pattern text' = true := by
  obtain ⟨prior, rest, stop, rfl, hmatch⟩ := search_iff.mp h
  have hprior := List.forall₂_take prior.length htext
  have hrest := List.forall₂_drop prior.length htext
  rw [List.take_left] at hprior
  rw [List.drop_left] at hrest
  have hsplit := (List.take_append_drop prior.length text').symm
  generalize text'.take prior.length = prior' at hprior hsplit
  generalize text'.drop prior.length = rest' at hrest hsplit
  subst hsplit
  have hlast : Option.Rel r prior.getLast? prior'.getLast? := by
    rw [← List.head?_reverse, ← List.head?_reverse]
    have hreverse := List.rel_reverse hprior
    generalize prior.reverse = last at hreverse
    generalize prior'.reverse = last' at hreverse
    cases hreverse with
    | nil => exact .none
    | cons hhead _ => exact .some hhead
  have hcuts : SameCut r ⟨prior.getLast?, rest⟩ ⟨prior'.getLast?, rest'⟩ :=
    ⟨hlast, hrest⟩
  obtain ⟨stop', _, hmatch'⟩ := hmatch.transport hword hrespects hcuts
  exact search_iff.mpr ⟨prior', rest', stop', rfl, hmatch'⟩

end Respecting

end TextPattern
