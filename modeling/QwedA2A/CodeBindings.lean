/-
What the code guard knows of the names of a program: every dangerous module or
member a name may be bound to, pushed along the assignments until no name gains
a new one.
-/
import QwedA2A.PyValue
import QwedA2A.Worklist
import Mathlib.Data.List.Dedup
import Mathlib.Order.Bounds.Basic

namespace QwedA2A

/-- One `name as asname` of an import. -/
structure Alias where
  name : PyStr
  asname : Option PyStr := none
  deriving DecidableEq

/-- `alias.asname`, when it is truthy. -/
def Alias.given (entry : Alias) : Option PyStr :=
  entry.asname.filter fun name => decide (name ≠ [])

/-- The syntax trees of `ast`, as far as the guard tells nodes apart.  `sequence` is
a tuple or a list, `definition` a function or class with what stands in its fields
before and after the decorators, `other` any other node. -/
inductive PyNode where
  | name (id : PyStr)
  | attributeExpr (value : PyNode) (attr : PyStr)
  | call (func : PyNode) (args keywords : List PyNode)
  | constStr (value : PyStr)
  | sequence (elts : List PyNode)
  | namedExpr (target value : PyNode)
  | importNames (names : List Alias)
  | importFrom (module : Option PyStr) (names : List Alias) (level : ℕ)
  | assign (targets : List PyNode) (value : PyNode)
  | annAssign (target annotation : PyNode) (value : Option PyNode)
  | definition (before decorators after : List PyNode)
  | other (children : List PyNode)

/-- A module, or a member of one: `(module, member-or-None)`. -/
abbrev Binding := PyStr × Option PyStr

/-- A dict of binding sets, as the list of its (name, binding) pairs. -/
abbrev BindingTable := List (PyStr × Binding)

def BindingTable.entry (table : BindingTable) (name : PyStr) : List Binding :=
  (table.filter fun pair => decide (pair.1 = name)).map Prod.snd

/-- `target = source` (attr None) or `target = source.attr`. -/
structure Edge where
  source : PyStr
  target : PyStr
  attr : Option PyStr
  deriving DecidableEq

/-- The modules with dangerous members, each with the names of these. -/
abbrev Receivers := List (PyStr × List PyStr)

/-- `receivers.get(module, frozenset())`. -/
def Receivers.methods (receivers : Receivers) (module : PyStr) : List PyStr :=
  (receivers.lookup module).getD []

/-- Names under which the builtins module is reachable without an import. -/
def builtinsModules : List PyStr := [py "builtins", py "__builtins__"]

/-- Only members the scanner can act on are worth a binding. -/
def Receivers.tracked (receivers : Receivers) (module member : PyStr) : Bool :=
  if member = py "getattr" then decide (module ∈ builtinsModules)
  else decide (member ∈ receivers.methods module)

/-- Binding of the target after `target = source` (attr None) or
`target = source.attr`; none when it leaves what is tracked. -/
def Receivers.follow (receivers : Receivers) (binding : Binding) :
    Option PyStr → Option Binding
  | none => some binding
  | some attr =>
      if binding.2 = none ∧ receivers.tracked binding.1 attr then
        some (binding.1, some attr)
      else none

structure Bindings where
  receivers : Receivers
  /-- What a name denotes with no assignment at all. -/
  implicit : BindingTable
  values : BindingTable := []
  edges : List Edge := []

namespace Bindings

/-- What `import` gives to names. -/
def importPairs (receivers : Receivers) (names : List Alias) : BindingTable :=
  names.filterMap fun entry =>
    entry.given.bind fun name =>
      if (receivers.lookup entry.name).isSome then some (name, (entry.name, none))
      else none

def addImport (b : Bindings) (names : List Alias) : Bindings :=
  { b with values := b.values ++ importPairs b.receivers names }

/-- What `from module import` gives to names. -/
def importFromPairs (receivers : Receivers) (module : PyStr) (names : List Alias) :
    BindingTable :=
  if (receivers.lookup module).isNone then []
  else
    names.filterMap fun entry =>
      if entry.name ≠ py "*" ∧ receivers.tracked module entry.name then
        some (entry.given.getD entry.name, (module, some entry.name))
      else none

def addImportFrom (b : Bindings) (module : PyStr) (names : List Alias) : Bindings :=
  { b with values := b.values ++ importFromPairs b.receivers module names }

mutual

def bind : PyNode → PyNode → List Edge
  | .sequence targets, value =>
      match value with
      | .sequence values =>
          if values.length = targets.length then bindAll targets values else []
      | _ => []
  | .name target, value =>
      match value with
      | .name source => [⟨source, target, none⟩]
      | .attributeExpr (.name source) attr => [⟨source, target, some attr⟩]
      | _ => []
  | _, _ => []

def bindAll : List PyNode → List PyNode → List Edge
  | target :: targets, value :: values => bind target value ++ bindAll targets values
  | _, _ => []

end

/-- The edges an assignment node records; no other node records any. -/
def assignmentEdges : PyNode → List Edge
  | .assign targets value => targets.flatMap fun target => bind target value
  | .annAssign target _ (some value) => bind target value
  | .namedExpr target value => bind target value
  | _ => []

def addAssignment (b : Bindings) (node : PyNode) : Bindings :=
  { b with edges := b.edges ++ assignmentEdges node }

def valuesOf (b : Bindings) (name : PyStr) : List Binding :=
  (b.values.entry name ++ b.implicit.entry name).dedup

/-- The bindings a source passes on along its assignments. -/
def passes (b : Bindings) (pair : PyStr × Binding) : List (PyStr × Binding) :=
  (b.edges.filter fun edge => decide (edge.source = pair.1)).filterMap fun edge =>
    (b.receivers.follow pair.2 edge.attr).map fun new => (edge.target, new)

/-- The first work: every binding known for the source of an assignment. -/
def pending (b : Bindings) : List (PyStr × Binding) :=
  (b.edges.map Edge.source).dedup.flatMap fun name =>
    (b.valuesOf name).map fun binding => (name, binding)

/-- The bindings that can turn up at all: those of the first work and the members
that assignments take of them. -/
def reachable (b : Bindings) : List Binding :=
  let seeds := b.pending.map Prod.snd
  seeds ++ seeds.flatMap fun seed =>
    (b.edges.filterMap Edge.attr).map fun attr => (seed.1, some attr)

def region (b : Bindings) : List (PyStr × Binding) :=
  b.pending ++ (b.edges.map Edge.target).flatMap fun target =>
    b.reachable.map fun binding => (target, binding)

/-- The loop after some turns, from any order of the first work. -/
def propagated (b : Bindings) (work : List (PyStr × Binding)) (turns : ℕ) :
    Worklist.State (PyStr × Binding) :=
  (Worklist.turn b.passes)^[turns] ⟨b.values, work⟩

/-- Push every known binding along the assignment edges until no name gains a new
one.  The turns given are enough for the loop to end (`done_of_le`). -/
def propagate (b : Bindings) : Bindings :=
  { b with
    values := (b.propagated b.pending.reverse (b.region.length + b.pending.length)).seen }

/-- Every binding `name` or `name.attr` may denote. -/
def resolve (b : Bindings) : PyNode → List Binding
  | .name id => b.valuesOf id
  | .attributeExpr (.name id) attr =>
      (b.valuesOf id).filterMap fun binding =>
        if binding.2 = none then some (binding.1, some attr) else none
  | _ => []

/-- Dangerous module names denote themselves; dangerous builtins (and getattr) keep
their builtin meaning even when re-bound somewhere. -/
def implicitBindings (receivers : Receivers) (callNames : List PyStr) : BindingTable :=
  receivers.map (fun entry => (entry.1, (entry.1, none))) ++
    (callNames ++ [py "getattr"]).map fun name => (name, (py "builtins", some name))

theorem mem_entry {table : BindingTable} {name : PyStr} {binding : Binding} :
    binding ∈ table.entry name ↔ (name, binding) ∈ table := by
  simp only [BindingTable.entry, List.mem_map, List.mem_filter, decide_eq_true_eq]
  constructor
  · rintro ⟨⟨_, _⟩, ⟨hmem, rfl⟩, rfl⟩
    exact hmem
  · exact fun hmem => ⟨(name, binding), ⟨hmem, rfl⟩, rfl⟩

theorem mem_valuesOf {b : Bindings} {name : PyStr} {binding : Binding} :
    binding ∈ b.valuesOf name ↔ (name, binding) ∈ b.values ∨ (name, binding) ∈ b.implicit := by
  rw [valuesOf, List.mem_dedup, List.mem_append, mem_entry, mem_entry]

theorem mem_passes {b : Bindings} {pair found : PyStr × Binding} :
    found ∈ b.passes pair ↔
      ∃ edge ∈ b.edges, edge.source = pair.1 ∧ edge.target = found.1 ∧
        b.receivers.follow pair.2 edge.attr = some found.2 := by
  simp only [passes, List.mem_filterMap, List.mem_filter, decide_eq_true_eq,
    Option.map_eq_some_iff]
  constructor
  · rintro ⟨edge, ⟨hedge, hsource⟩, new, hnew, rfl⟩
    exact ⟨edge, hedge, hsource, rfl, hnew⟩
  · rintro ⟨edge, hedge, hsource, htarget, hnew⟩
    exact ⟨edge, ⟨hedge, hsource⟩, found.2, hnew, by rw [htarget]⟩

theorem mem_pending {b : Bindings} {pair : PyStr × Binding} :
    pair ∈ b.pending ↔
      (∃ edge ∈ b.edges, edge.source = pair.1) ∧ pair.2 ∈ b.valuesOf pair.1 := by
  simp only [pending, List.mem_flatMap, List.mem_dedup, List.mem_map]
  constructor
  · rintro ⟨name, hname, binding, hbinding, rfl⟩
    exact ⟨hname, hbinding⟩
  · rintro ⟨hsource, hbinding⟩
    exact ⟨pair.1, hsource, pair.2, hbinding, rfl⟩

/-- What is followed is kept, or is the member taken of a module. -/
theorem follow_eq_some {receivers : Receivers} {binding new : Binding}
    {attr : Option PyStr} (h : receivers.follow binding attr = some new) :
    attr = none ∧ new = binding ∨
      ∃ member, attr = some member ∧ binding.2 = none ∧ new = (binding.1, some member) := by
  cases attr with
  | none => exact Or.inl ⟨rfl, (Option.some.inj h).symm⟩
  | some member =>
      rw [Receivers.follow] at h
      split_ifs at h with htracked
      exact Or.inr ⟨member, rfl, htracked.1, (Option.some.inj h).symm⟩

theorem mem_reachable {b : Bindings} {binding : Binding} :
    binding ∈ b.reachable ↔
      (∃ name, (name, binding) ∈ b.pending) ∨
        ∃ name seed, (name, seed) ∈ b.pending ∧ ∃ edge ∈ b.edges, ∃ member,
          edge.attr = some member ∧ (seed.1, some member) = binding := by
  have hseeds : ∀ seed, seed ∈ b.pending.map Prod.snd ↔ ∃ name, (name, seed) ∈ b.pending :=
    fun seed => by simp
  simp only [reachable, List.mem_append, List.mem_flatMap, hseeds]
  simp only [List.mem_map, List.mem_filterMap]
  constructor
  · rintro (hseed | ⟨seed, ⟨name, hseed⟩, member, ⟨edge, hedge, hattr⟩, rfl⟩)
    · exact Or.inl hseed
    · exact Or.inr ⟨name, seed, hseed, edge, hedge, member, hattr, rfl⟩
  · rintro (hseed | ⟨name, seed, hseed, edge, hedge, member, hattr, rfl⟩)
    · exact Or.inl hseed
    · exact Or.inr ⟨seed, ⟨name, hseed⟩, member, ⟨edge, hedge, hattr⟩, rfl⟩

theorem follow_mem_reachable {b : Bindings} {edge : Edge} {binding new : Binding}
    (hedge : edge ∈ b.edges) (h : binding ∈ b.reachable)
    (hnew : b.receivers.follow binding edge.attr = some new) : new ∈ b.reachable := by
  rcases follow_eq_some hnew with ⟨-, rfl⟩ | ⟨member, hattr, hmodule, rfl⟩
  · exact h
  · rcases mem_reachable.1 h with ⟨name, hseed⟩ | ⟨_, seed, -, -, -, taken, -, rfl⟩
    · exact mem_reachable.2 (Or.inr ⟨name, binding, hseed, edge, hedge, member, hattr, rfl⟩)
    · exact absurd hmodule (Option.some_ne_none taken)

theorem mem_region {b : Bindings} {pair : PyStr × Binding} :
    pair ∈ b.region ↔
      pair ∈ b.pending ∨ (∃ edge ∈ b.edges, edge.target = pair.1) ∧ pair.2 ∈ b.reachable := by
  simp only [region, List.mem_append, List.mem_flatMap, List.mem_map]
  refine or_congr_right ⟨?_, ?_⟩
  · rintro ⟨target, htarget, binding, hbinding, rfl⟩
    exact ⟨htarget, hbinding⟩
  · rintro ⟨htarget, hbinding⟩
    exact ⟨pair.1, htarget, pair.2, hbinding, rfl⟩

theorem reachable_of_region {b : Bindings} {pair : PyStr × Binding} (h : pair ∈ b.region) :
    pair.2 ∈ b.reachable :=
  (mem_region.1 h).elim (fun hpending => mem_reachable.2 (Or.inl ⟨pair.1, hpending⟩))
    And.right

theorem inside {b : Bindings} {work : List (PyStr × Binding)}
    (hwork : ∀ pair, pair ∈ work ↔ pair ∈ b.pending) :
    Worklist.Inside b.passes b.region.toFinset ⟨b.values, work⟩ where
  work pair h := List.mem_toFinset.2 (mem_region.2 (Or.inl ((hwork pair).1 h)))
  closed pair h found hfound := by
    obtain ⟨edge, hedge, -, htarget, hnew⟩ := mem_passes.1 hfound
    have hreachable := reachable_of_region (List.mem_toFinset.1 h)
    exact List.mem_toFinset.2 (mem_region.2 (Or.inr
      ⟨⟨edge, hedge, htarget⟩, follow_mem_reachable hedge hreachable hnew⟩))

/-- In whatever order the first work is taken up, the loop ends. -/
theorem done_of_le {b : Bindings} {work : List (PyStr × Binding)}
    (hwork : ∀ pair, pair ∈ work ↔ pair ∈ b.pending) {turns : ℕ}
    (hturns : b.region.length + work.length ≤ turns) :
    (b.propagated work turns).work = [] := by
  refine Worklist.done_of_remaining_le (inside hwork) (le_trans ?_ hturns)
  have hunseen := (Finset.card_filter_le b.region.toFinset (· ∉ b.values)).trans
    b.region.toFinset_card_le
  simp only [Worklist.remaining]
  omega

/-- A family of binding sets, one for each name, that an analysis may report: it
has what each name denotes unassigned, what imports give it, and what every
assignment passes on. -/
structure ClosedFamily (b : Bindings) (F : PyStr → Set Binding) : Prop where
  implicit : ∀ name, ∀ binding ∈ b.implicit.entry name, binding ∈ F name
  imported : ∀ name, ∀ binding ∈ b.values.entry name, binding ∈ F name
  edges : ∀ edge ∈ b.edges, ∀ binding ∈ F edge.source, ∀ new,
    b.receivers.follow binding edge.attr = some new → new ∈ F edge.target

/-- What `valuesOf` reports, for every name at once. -/
def family (b : Bindings) : PyStr → Set Binding :=
  fun name => {binding | binding ∈ b.valuesOf name}

/-- What `name` or `name.attr` may denote under a family. -/
def mayDenote (F : PyStr → Set Binding) : PyNode → Set Binding
  | .name id => F id
  | .attributeExpr (.name id) attr =>
      {binding | ∃ module, (module, none) ∈ F id ∧ binding = (module, some attr)}
  | _ => ∅

theorem mem_resolve {b : Bindings} {expr : PyNode} {binding : Binding} :
    binding ∈ b.resolve expr ↔ binding ∈ mayDenote b.family expr := by
  cases expr with
  | name id => exact Iff.rfl
  | attributeExpr value attr =>
      cases value with
      | name id =>
          simp only [resolve, mayDenote, family, List.mem_filterMap, Set.mem_ofPred_eq,
            Option.ite_none_right_eq_some, Option.some.injEq]
          constructor
          · rintro ⟨⟨module, member⟩, hmem, rfl, rfl⟩
            exact ⟨module, hmem, rfl⟩
          · rintro ⟨module, hmem, rfl⟩
            exact ⟨(module, none), hmem, rfl, rfl⟩
      | _ => simp [resolve, mayDenote]
  | _ => simp [resolve, mayDenote]

def after (b : Bindings) (work : List (PyStr × Binding)) (turns : ℕ) : Bindings :=
  { b with values := (b.propagated work turns).seen }

theorem propagate_eq_after (b : Bindings) :
    b.propagate = b.after b.pending.reverse (b.region.length + b.pending.length) := rfl

/-- An imported binding waits for its turn, unless its name is no source. -/
theorem primed {b : Bindings} {work : List (PyStr × Binding)}
    (hwork : ∀ pair, pair ∈ work ↔ pair ∈ b.pending) :
    Worklist.Primed b.passes ⟨b.values, work⟩ := by
  intro pair hpair
  by_cases hsource : ∃ edge ∈ b.edges, edge.source = pair.1
  · exact Or.inl ((hwork pair).2 (mem_pending.2 ⟨hsource, mem_valuesOf.2 (Or.inl hpair)⟩))
  · refine Or.inr fun found hfound => ?_
    obtain ⟨edge, hedge, hfrom, -⟩ := mem_passes.1 hfound
    exact absurd ⟨edge, hedge, hfrom⟩ hsource

/-- A closed family, as a set of pairs, covers the loop's start. -/
theorem ClosedFamily.covers {b : Bindings} {F : PyStr → Set Binding}
    (h : b.ClosedFamily F) {work : List (PyStr × Binding)}
    (hwork : ∀ pair, pair ∈ work ↔ pair ∈ b.pending) :
    Worklist.Covers b.passes ⟨b.values, work⟩ {pair | pair.2 ∈ F pair.1} := by
  have hclosed : ∀ pair ∈ {pair : PyStr × Binding | pair.2 ∈ F pair.1},
      ∀ found ∈ b.passes pair, found ∈ {pair : PyStr × Binding | pair.2 ∈ F pair.1} := by
    intro pair hpair found hfound
    obtain ⟨edge, hedge, hfrom, hto, hnew⟩ := mem_passes.1 hfound
    have := h.edges edge hedge pair.2 (hfrom ▸ hpair) found.2 hnew
    rwa [hto] at this
  have hvalues : ∀ pair ∈ b.values, pair.2 ∈ F pair.1 := fun pair hpair =>
    h.imported pair.1 pair.2 (mem_entry.2 hpair)
  refine ⟨hvalues, fun pair hpair => hclosed pair ?_, hclosed⟩
  rcases mem_valuesOf.1 (mem_pending.1 ((hwork pair).1 hpair)).2 with hfound | hfound
  · exact hvalues pair hfound
  · exact h.implicit pair.1 pair.2 (mem_entry.2 hfound)

/-- When the loop has ended, every name has exactly the bindings of the least
closed family. -/
theorem family_isLeast {b : Bindings} {work : List (PyStr × Binding)}
    (hwork : ∀ pair, pair ∈ work ↔ pair ∈ b.pending) {turns : ℕ}
    (hdone : (b.propagated work turns).work = []) :
    IsLeast {F | b.ClosedFamily F} (b.after work turns).family := by
  obtain ⟨hcovers, hleast⟩ := Worklist.seen_isLeast (primed hwork) hdone
  refine ⟨⟨fun name binding hmem => ?_, fun name binding hmem => ?_,
    fun edge hedge binding hmem new hnew => ?_⟩, fun F hF name binding hmem => ?_⟩
  · exact mem_valuesOf.2 (Or.inr (mem_entry.1 hmem))
  · exact mem_valuesOf.2 (Or.inl (hcovers.seen _ (mem_entry.1 hmem)))
  · have hpass : (edge.target, new) ∈ b.passes (edge.source, binding) :=
      mem_passes.2 ⟨edge, hedge, rfl, rfl, hnew⟩
    refine mem_valuesOf.2 (Or.inl ?_)
    rcases mem_valuesOf.1 hmem with hseen | himplicit
    · exact hcovers.closed _ hseen _ hpass
    · have hfirst : (edge.source, binding) ∈ work := (hwork _).2
        (mem_pending.2 ⟨⟨edge, hedge, rfl⟩, mem_valuesOf.2 (Or.inr himplicit)⟩)
      exact hcovers.work _ hfirst _ hpass
  · rcases mem_valuesOf.1 hmem with hseen | himplicit
    · exact hleast (hF.covers hwork) hseen
    · exact hF.implicit name binding (mem_entry.2 himplicit)

theorem propagate_isLeast (b : Bindings) :
    IsLeast {F | b.ClosedFamily F} b.propagate.family := by
  rw [propagate_eq_after]
  exact family_isLeast (fun _ => List.mem_reverse)
    (done_of_le (fun _ => List.mem_reverse) (by rw [List.length_reverse]))

end Bindings

end QwedA2A
