/-
What running a program may put into its names, against what the structural scan
knows of them.  Every call the scan should report is reported; a decorator is an
invocation that it does not look at.
-/
import QwedA2A.CodeScan

namespace QwedA2A

/-- What a name holds, as far as the tables tell values apart. -/
inductive Denoted where
  | module (name : PyStr)
  | member (module name : PyStr)
  | unknown
  deriving DecidableEq

/-- The names bound so far; a function's own names are not kept apart. -/
abbrev Scope := PyStr → Option Denoted

def moduleValue (name : PyStr) : Denoted :=
  if (dangerousReceiverMethods.lookup name).isSome then .module name else .unknown

/-- An attribute of a value; one that is in no table is opaque to the guard. -/
def attrValue : Denoted → PyStr → Denoted
  | .module name, attr =>
      if attr ∈ dangerousReceiverMethods.methods name then .member name attr else .unknown
  | _, _ => .unknown

def builtinValue (name : PyStr) : Option Denoted :=
  if name ∈ dangerousCallNames then some (.member (py "builtins") name)
  else if name = py "__builtins__" then some (.module name)
  else none

def Scope.lookup (scope : Scope) (name : PyStr) : Option Denoted :=
  (scope name).or (builtinValue name)

/-- The value of `name` or `name.attr`; none is a NameError.  Any other expression
has an opaque value. -/
def Scope.evaluate (scope : Scope) : PyNode → Option Denoted
  | .name id => scope.lookup id
  | .attributeExpr (.name id) attr => (scope.lookup id).map fun value => attrValue value attr
  | _ => some .unknown

def Scope.bind (scope : Scope) (name : PyStr) (value : Denoted) : Scope :=
  Function.update scope name (some value)

mutual

/-- The names one target binds, each with the expression it takes. -/
def unpack : PyNode → PyNode → List (PyStr × PyNode)
  | .sequence targets, value =>
      match value with
      | .sequence values =>
          if values.length = targets.length then unpackAll targets values else []
      | _ => []
  | .name target, value => [(target, value)]
  | _, _ => []

def unpackAll : List PyNode → List PyNode → List (PyStr × PyNode)
  | target :: targets, value :: values => unpack target value ++ unpackAll targets values
  | _, _ => []

end

/-- Bind one name to what an expression had evaluated to. -/
def Scope.take (before bound : Scope) (pair : PyStr × PyNode) : Scope :=
  match before.evaluate pair.2 with
  | some value => bound.bind pair.1 value
  | none => bound

/-- An assignment evaluates its value first; where that fails nothing is bound. -/
def Scope.assign (scope : Scope) (targets : List PyNode) (value : PyNode) : Scope :=
  let pairs := targets.flatMap fun target => unpack target value
  if pairs.all fun pair => (scope.evaluate pair.2).isSome then pairs.foldl scope.take scope
  else scope

def Scope.import (scope : Scope) (entry : Alias) : Scope :=
  match entry.given with
  | some name => scope.bind name (moduleValue entry.name)
  | none => scope.bind (rootOf entry.name) (moduleValue (rootOf entry.name))

/-- The module a from-import reads; a relative one is none of the tables. -/
def importSource (module : Option PyStr) (level : ℕ) : Denoted :=
  match module, level with
  | some name, 0 => moduleValue name
  | _, _ => .unknown

/-- One name of a from-import; a star binds every member that is listed. -/
def Scope.importFrom (scope : Scope) (source : Denoted) (entry : Alias) : Scope :=
  if entry.name = py "*" then
    match source with
    | .module name =>
        (dangerousReceiverMethods.methods name).foldl
          (fun scope member => scope.bind member (.member name member)) scope
    | _ => scope
  else scope.bind (entry.given.getD entry.name) (attrValue source entry.name)

/-- Execute one node's bindings; only imports and assignments have any. -/
def Scope.exec (scope : Scope) : PyNode → Scope
  | .importNames names => names.foldl Scope.import scope
  | .importFrom module names level =>
      names.foldl (fun scope entry => scope.importFrom (importSource module level) entry) scope
  | .assign targets value => scope.assign targets value
  | .annAssign target _ (some value) => scope.assign [target] value
  | .namedExpr target value => scope.assign [target] value
  | _ => scope

/-- The scope after some of a program's bindings, in any order and any number of times. -/
def Scope.after (run : List PyNode) : Scope := run.foldl Scope.exec fun _ => none

/-- A listed member of a listed module; the dangerous builtins are among them. -/
def Denoted.Dangerous : Denoted → Prop
  | .member receiver name => name ∈ dangerousReceiverMethods.methods receiver
  | _ => False

/-- Under some order of executing the program's bindings, the expression denotes a
dangerous member or builtin. -/
def MayBeDangerous (tree callee : PyNode) : Prop :=
  ∃ run : List PyNode, (∀ node ∈ run, node.Within tree) ∧
    ∃ value, (Scope.after run).evaluate callee = some value ∧ value.Dangerous

/-- The callee of a call of the program. -/
def Calls (tree callee : PyNode) : Prop :=
  ∃ args keywords, (PyNode.call callee args keywords).Within tree

/-- A decorator of a function or class of the program. -/
def Decorates (tree callee : PyNode) : Prop :=
  ∃ before decorators after, (PyNode.definition before decorators after).Within tree ∧
    callee ∈ decorators

/-- No invocation in the program that may be dangerous goes without a threat. -/
def Detects (ud : UnicodeData) (tree : PyNode) : Prop :=
  ∀ callee, Calls tree callee ∨ Decorates tree callee → MayBeDangerous tree callee →
    scanAstThreats ud tree ≠ []

/-- No listed member is called getattr, so every listed member is tracked. -/
theorem tracked_of_mem_methods {module member : PyStr}
    (h : member ∈ dangerousReceiverMethods.methods module) :
    dangerousReceiverMethods.tracked module member := by
  have hnone : ∀ entry ∈ dangerousReceiverMethods, py "getattr" ∉ entry.2 := by decide +kernel
  have hentry : ∀ methods, dangerousReceiverMethods.lookup module = some methods →
      (module, methods) ∈ dangerousReceiverMethods := fun methods hlookup => by
    rw [List.lookup_eq_some_iff] at hlookup
    obtain ⟨before, after, happend, -⟩ := hlookup
    rw [happend]
    simp
  rw [Receivers.tracked]
  split_ifs with hgetattr
  · cases hlookup : dangerousReceiverMethods.lookup module with
    | none => simp [Receivers.methods, hlookup] at h
    | some methods =>
        rw [Receivers.methods, hlookup, hgetattr] at h
        exact absurd h (hnone _ (hentry methods hlookup))
  · simpa using h

def Denoted.binding : Denoted → Option Binding
  | .module name => some (name, none)
  | .member receiver name => some (receiver, some name)
  | .unknown => none

theorem attrValue_binding {value : Denoted} {attr : PyStr} {binding : Binding}
    (h : (attrValue value attr).binding = some binding) :
    ∃ receiver, value.binding = some (receiver, none) ∧ binding = (receiver, some attr) ∧
      attr ∈ dangerousReceiverMethods.methods receiver := by
  cases value with
  | module name =>
      rw [attrValue] at h
      split_ifs at h with hattr
      · exact ⟨name, rfl, (Option.some.inj h).symm, hattr⟩
      · cases h
  | member | unknown => cases h

theorem moduleValue_binding {name : PyStr} {binding : Binding}
    (h : (moduleValue name).binding = some binding) :
    binding = (name, none) ∧ (dangerousReceiverMethods.lookup name).isSome := by
  rw [moduleValue] at h
  split_ifs at h with hlisted
  · exact ⟨(Option.some.inj h).symm, hlisted⟩
  · cases h

/-- Every value a name holds is known to the family. -/
def Tracks (F : PyStr → Set Binding) (scope : Scope) : Prop :=
  ∀ name value binding, scope.lookup name = some value → value.binding = some binding →
    binding ∈ F name

variable {F : PyStr → Set Binding} {scope : Scope}

theorem Tracks.bind (h : Tracks F scope) {name : PyStr} {value : Denoted}
    (hvalue : ∀ binding, value.binding = some binding → binding ∈ F name) :
    Tracks F (scope.bind name value) := by
  intro found held binding hlookup hbinding
  rw [Scope.lookup, Scope.bind] at hlookup
  by_cases hname : found = name
  · subst hname
    rw [Function.update_self, Option.some_or, Option.some.injEq] at hlookup
    exact hvalue binding (hlookup ▸ hbinding)
  · rw [Function.update_of_ne hname] at hlookup
    exact h found held binding hlookup hbinding

theorem Tracks.foldl {α : Type} {f : Scope → α → Scope} {items : List α}
    (h : Tracks F scope)
    (hstep : ∀ item ∈ items, ∀ scope, Tracks F scope → Tracks F (f scope item)) :
    Tracks F (items.foldl f scope) := by
  induction items generalizing scope with
  | nil => exact h
  | cons item items ih =>
      rw [List.forall_mem_cons] at hstep
      exact ih (hstep.1 scope h) hstep.2

/-- A program that records nothing of a value in a name never puts it there: what
an expression may be, the family knows for every name it is assigned to. -/
theorem Tracks.evaluate {b : Bindings} (hreceivers : b.receivers = dangerousReceiverMethods)
    (hF : b.ClosedFamily F) (h : Tracks F scope) {target : PyStr} {expr : PyNode}
    {value : Denoted} {binding : Binding}
    (hedge : ∀ edge ∈ Bindings.bind (.name target) expr, edge ∈ b.edges)
    (hvalue : scope.evaluate expr = some value) (hbinding : value.binding = some binding) :
    binding ∈ F target := by
  cases expr with
  | name source =>
      have hsource := h source value binding hvalue hbinding
      exact hF.edges _ (hedge ⟨source, target, none⟩ (by simp [Bindings.bind])) _ hsource _ rfl
  | attributeExpr inner attr =>
      cases inner with
      | name source =>
          obtain ⟨held, hheld, rfl⟩ := Option.map_eq_some_iff.1 hvalue
          obtain ⟨receiver, hmodule, rfl, hattr⟩ := attrValue_binding hbinding
          have hsource := h source held _ hheld hmodule
          refine hF.edges _ (hedge ⟨source, target, some attr⟩ (by simp [Bindings.bind])) _
            hsource _ ?_
          rw [hreceivers, Receivers.follow, if_pos ⟨rfl, tracked_of_mem_methods hattr⟩]
      | _ => cases hvalue; cases hbinding
  | _ => cases hvalue; cases hbinding

mutual

/-- Each pair that is unpacked is recorded as the guard records it on its own. -/
theorem bind_of_unpack {target value : PyNode} {pair : PyStr × PyNode} {edge : Edge}
    (hpair : pair ∈ unpack target value) (hedge : edge ∈ Bindings.bind (.name pair.1) pair.2) :
    edge ∈ Bindings.bind target value := by
  cases target with
  | sequence targets =>
      cases value with
      | sequence values =>
          rw [unpack] at hpair
          rw [Bindings.bind]
          split_ifs at hpair ⊢ with hlength
          · exact bind_of_unpackAll hpair hedge
          · simp at hpair
      | _ => simp [unpack] at hpair
  | name target =>
      rw [unpack, List.mem_singleton] at hpair
      subst hpair
      exact hedge
  | _ => simp [unpack] at hpair

theorem bind_of_unpackAll {targets values : List PyNode} {pair : PyStr × PyNode}
    {edge : Edge} (hpair : pair ∈ unpackAll targets values)
    (hedge : edge ∈ Bindings.bind (.name pair.1) pair.2) :
    edge ∈ Bindings.bindAll targets values := by
  cases targets with
  | nil => simp [unpackAll] at hpair
  | cons target targets =>
      cases values with
      | nil => simp [unpackAll] at hpair
      | cons value values =>
          rw [unpackAll, List.mem_append] at hpair
          rw [Bindings.bindAll, List.mem_append]
          exact hpair.imp (bind_of_unpack · hedge) (bind_of_unpackAll · hedge)

end

theorem Tracks.assign {b : Bindings} (hreceivers : b.receivers = dangerousReceiverMethods)
    (hF : b.ClosedFamily F) (h : Tracks F scope) {targets : List PyNode} {value : PyNode}
    (hedges : ∀ target ∈ targets, ∀ edge ∈ Bindings.bind target value, edge ∈ b.edges) :
    Tracks F (scope.assign targets value) := by
  rw [Scope.assign]
  split_ifs with hevaluates
  · refine h.foldl fun pair hpair bound hbound => ?_
    obtain ⟨target, htarget, hunpack⟩ := List.mem_flatMap.1 hpair
    rw [Scope.take]
    cases hvalue : scope.evaluate pair.2 with
    | none => exact hbound
    | some held =>
        exact hbound.bind fun binding hbinding =>
          h.evaluate hreceivers hF
            (fun edge hedge => hedges target htarget edge (bind_of_unpack hunpack hedge))
            hvalue hbinding
  · exact h

theorem mem_implicit_of_module {name : PyStr}
    (h : (dangerousReceiverMethods.lookup name).isSome) :
    (name, (name, none)) ∈ implicitTable := by
  obtain ⟨methods, hlookup⟩ := Option.isSome_iff_exists.1 h
  rw [List.lookup_eq_some_iff] at hlookup
  obtain ⟨before, after, happend, -⟩ := hlookup
  refine List.mem_append_left _ (List.mem_map.2 ⟨(name, methods), ?_, rfl⟩)
  rw [happend]
  simp

/-- Before anything is bound, a name holds its builtin meaning. -/
theorem Tracks.empty {tree : PyNode} (hF : (recorded tree).ClosedFamily F) :
    Tracks F fun _ => none := by
  intro name value binding hlookup hbinding
  refine hF.implicit name binding (Bindings.mem_entry.2 ?_)
  rw [Scope.lookup, Option.none_or, builtinValue] at hlookup
  split_ifs at hlookup with hcall hmodule
  · cases hlookup
    cases hbinding
    exact List.mem_append_right _
      (List.mem_map.2 ⟨name, List.mem_append_left _ hcall, rfl⟩)
  · cases hlookup
    cases hbinding
    exact mem_implicit_of_module (by rw [hmodule]; rfl)

theorem importSource_binding {module : Option PyStr} {level : ℕ} {receiver : PyStr}
    (h : (importSource module level).binding = some (receiver, none)) :
    module = some receiver ∧ (dangerousReceiverMethods.lookup receiver).isSome := by
  unfold importSource at h
  split at h
  next name =>
    obtain ⟨heq, hlisted⟩ := moduleValue_binding h
    cases heq
    exact ⟨rfl, hlisted⟩
  next => cases h

theorem ne_nil_of_listed {module : PyStr}
    (h : (dangerousReceiverMethods.lookup module).isSome) : module ≠ [] := by
  rintro rfl
  revert h
  decide

theorem importThreats_star {module : PyStr} {names : List Alias} {level : ℕ} {entry : Alias}
    (hlisted : (dangerousReceiverMethods.lookup module).isSome) (hentry : entry ∈ names)
    (hstar : entry.name = py "*") :
    importThreats (.importFrom (some module) names level) ≠ [] := by
  obtain ⟨methods, hmethods⟩ := Option.isSome_iff_exists.1 hlisted
  rw [importThreats, if_pos (ne_nil_of_listed hlisted), scanAstImportFrom, hmethods]
  have hmem : entry ∈ names.filter fun entry =>
      decide (entry.name = py "*" ∨ entry.name ∈ methods) :=
    List.mem_filter.2 ⟨hentry, by simp [hstar]⟩
  exact List.append_ne_nil_of_right_ne_nil _
    (List.ne_nil_of_mem (List.mem_map_of_mem hmem))

/-- Executing a node that is not reported itself keeps the scope tracked. -/
theorem Tracks.exec {tree node : PyNode} (hF : (recorded tree).ClosedFamily F)
    (hnode : node.Within tree) (hclean : importThreats node = []) (h : Tracks F scope) :
    Tracks F (scope.exec node) := by
  have himported : ∀ name binding, (name, binding) ∈ importedPairs node → binding ∈ F name :=
    fun name binding hpair => hF.imported name binding (Bindings.mem_entry.2
      (List.mem_flatMap.2 ⟨node, mem_walk.2 hnode, hpair⟩))
  have hassigned : ∀ edge ∈ Bindings.assignmentEdges node, edge ∈ (recorded tree).edges :=
    fun edge hedge => List.mem_flatMap.2 ⟨node, mem_walk.2 hnode, hedge⟩
  cases node with
  | importNames names =>
      refine h.foldl fun entry hentry bound hbound => ?_
      rw [Scope.import]
      cases hgiven : entry.given with
      | some name =>
          refine hbound.bind fun binding hbinding => ?_
          obtain ⟨rfl, hlisted⟩ := moduleValue_binding hbinding
          exact himported _ _ (List.mem_filterMap.2 ⟨entry, hentry, by simp [hgiven, hlisted]⟩)
      | none =>
          refine hbound.bind fun binding hbinding => ?_
          obtain ⟨rfl, hlisted⟩ := moduleValue_binding hbinding
          exact hF.implicit _ _ (Bindings.mem_entry.2 (mem_implicit_of_module hlisted))
  | importFrom module names level =>
      refine h.foldl fun entry hentry bound hbound => ?_
      unfold Scope.importFrom
      split_ifs with hstar
      · split
        next receiver hsource =>
          obtain ⟨rfl, hlisted⟩ := importSource_binding (by rw [hsource]; rfl)
          exact absurd hclean (importThreats_star hlisted hentry hstar)
        next => exact hbound
      · refine hbound.bind fun binding hbinding => ?_
        obtain ⟨receiver, hsource, rfl, hmember⟩ := attrValue_binding hbinding
        obtain ⟨rfl, hlisted⟩ := importSource_binding hsource
        refine himported _ _ ?_
        rw [importedPairs, if_pos (ne_nil_of_listed hlisted), Bindings.importFromPairs,
          if_neg (by simpa using hlisted)]
        exact List.mem_filterMap.2
          ⟨entry, hentry, if_pos ⟨hstar, tracked_of_mem_methods hmember⟩⟩
  | assign targets value =>
      exact h.assign rfl hF fun target htarget edge hedge =>
        hassigned edge (List.mem_flatMap.2 ⟨target, htarget, hedge⟩)
  | annAssign target annotation value =>
      cases value with
      | none => exact h
      | some value =>
          refine h.assign rfl hF fun found hfound edge hedge => hassigned edge ?_
          rwa [List.mem_singleton.1 hfound] at hedge
  | namedExpr target value =>
      refine h.assign rfl hF fun found hfound edge hedge => hassigned edge ?_
      rwa [List.mem_singleton.1 hfound] at hedge
  | _ => exact h

/-- A run over nodes that are not reported themselves stays within the family. -/
theorem tracks_after {tree : PyNode} (hF : (recorded tree).ClosedFamily F)
    {run : List PyNode} (hrun : ∀ node ∈ run, node.Within tree)
    (hclean : ∀ node ∈ run, importThreats node = []) : Tracks F (Scope.after run) :=
  (Tracks.empty hF).foldl fun node hnode _ h =>
    h.exec hF (hrun node hnode) (hclean node hnode)

/-- Everything that assignments may carry into a name, in whatever order they run:
what all closed families agree on. -/
def aliases (tree : PyNode) : PyStr → Set Binding :=
  fun name => {binding | ∀ F, (recorded tree).ClosedFamily F → binding ∈ F name}

theorem aliases_eq (tree : PyNode) : aliases tree = (recorded tree).propagate.family := by
  obtain ⟨hclosed, hleast⟩ := (recorded tree).propagate_isLeast
  funext name
  refine Set.ext fun binding => ⟨fun h => h _ hclosed, fun h F hF => hleast hF name h⟩

theorem aliases_closed (tree : PyNode) : (recorded tree).ClosedFamily (aliases tree) := by
  rw [aliases_eq]
  exact (recorded tree).propagate_isLeast.1

/-- An import that is reported. -/
def FlaggedImport : PyNode → Prop
  | .importNames names => ∃ entry ∈ names, rootOf entry.name ∈ dangerousImports
  | .importFrom (some module) names _ =>
      module ≠ [] ∧ (rootOf module ∈ dangerousImports ∨
        (dangerousReceiverMethods.lookup module).isSome ∧ ∃ entry ∈ names,
          entry.name = py "*" ∨ entry.name ∈ dangerousReceiverMethods.methods module)
  | _ => False

/-- A call that is reported, by what its callee and first argument may denote. -/
def FlaggedCall (F : PyStr → Set Binding) (func : PyNode) (args : List PyNode) : Prop :=
  (∃ id ∈ dangerousCallNames, func = .name id) ∨
    (∃ receiver, ∃ member ∈ dangerousReceiverMethods.methods receiver,
      (receiver, some member) ∈ Bindings.mayDenote F func) ∨
    (∃ binding ∈ getattrBindings, binding ∈ Bindings.mayDenote F func) ∧
      ∃ receiver attr rest, args = receiver :: attr :: rest ∧
        ∃ module, (module, none) ∈ Bindings.mayDenote F receiver ∧
          ∀ value, attr = .constStr value → value ∈ dangerousReceiverMethods.methods module

/-- A program with an import or a call that is reported. -/
def Flagged (tree : PyNode) : Prop :=
  (∃ node, node.Within tree ∧ FlaggedImport node) ∨
    ∃ func args keywords, (PyNode.call func args keywords).Within tree ∧
      FlaggedCall (aliases tree) func args

theorem importThreats_ne_nil {node : PyNode} :
    importThreats node ≠ [] ↔ FlaggedImport node := by
  cases node with
  | importNames names =>
      simp [importThreats, FlaggedImport, scanAstImport, List.filter_eq_nil_iff]
  | importFrom module names level =>
      cases module with
      | none => simp [importThreats, FlaggedImport]
      | some module =>
          rw [importThreats, FlaggedImport, scanAstImportFrom, Receivers.methods]
          cases hlookup : dangerousReceiverMethods.lookup module with
          | none => simp
          | some methods =>
              simp [List.filter_eq_nil_iff, or_iff_not_imp_left]
  | _ => simp [importThreats, FlaggedImport]

theorem memberThreat_isSome {binding : Binding} :
    (memberThreat binding).isSome ↔
      ∃ member ∈ dangerousReceiverMethods.methods binding.1, binding.2 = some member := by
  obtain ⟨module, member⟩ := binding
  cases member with
  | none => simp [memberThreat]
  | some member => simp [memberThreat]

theorem getattrThreat_isSome {ud : UnicodeData} {attr : PyNode} {binding : Binding} :
    (getattrThreat ud attr binding).isSome ↔ binding.2 = none ∧ ∀ value,
      attr = .constStr value → value ∈ dangerousReceiverMethods.methods binding.1 := by
  obtain ⟨module, member⟩ := binding
  cases member with
  | some member => simp [getattrThreat]
  | none => cases attr <;> simp [getattrThreat]

/-- A getattr call is reported when its receiver may be a module and its attribute
is a listed member of it or is chosen at runtime. -/
theorem exists_mem_scanGetattrCall {ud : UnicodeData} {args : List PyNode} {b : Bindings} :
    (∃ threat, threat ∈ scanGetattrCall ud args b) ↔
      ∃ receiver attr rest, args = receiver :: attr :: rest ∧
        ∃ module, (module, none) ∈ Bindings.mayDenote b.family receiver ∧ ∀ value,
          attr = .constStr value → value ∈ dangerousReceiverMethods.methods module := by
  simp only [mem_scanGetattrCall, Bindings.mem_resolve]
  constructor
  · rintro ⟨threat, receiver, attr, rest, hargs, ⟨module, member⟩, hmem, hthreat⟩
    obtain ⟨rfl, hattr⟩ := getattrThreat_isSome.1 (Option.isSome_of_eq_some hthreat)
    exact ⟨receiver, attr, rest, hargs, module, hmem, hattr⟩
  · rintro ⟨receiver, attr, rest, hargs, module, hmem, hattr⟩
    obtain ⟨threat, hthreat⟩ :=
      Option.isSome_iff_exists.1 ((@getattrThreat_isSome ud attr (module, none)).2 ⟨rfl, hattr⟩)
    exact ⟨threat, receiver, attr, rest, hargs, (module, none), hmem, hthreat⟩

theorem exists_mem_scanCallee {ud : UnicodeData} {func : PyNode} {args : List PyNode}
    {b : Bindings} :
    (∃ threat, threat ∈ scanCallee ud func args b) ↔
      (∃ receiver, ∃ member ∈ dangerousReceiverMethods.methods receiver,
        (receiver, some member) ∈ Bindings.mayDenote b.family func) ∨
      (∃ binding ∈ getattrBindings, binding ∈ Bindings.mayDenote b.family func) ∧
        ∃ threat, threat ∈ scanGetattrCall ud args b := by
  simp only [mem_scanCallee, Bindings.mem_resolve, exists_or, exists_and_left]
  refine or_congr ⟨?_, ?_⟩ (and_congr_left fun _ => exists_congr fun _ => and_comm)
  · rintro ⟨threat, ⟨receiver, member⟩, hmem, hthreat⟩
    obtain ⟨found, hfound, rfl⟩ := memberThreat_isSome.1 (Option.isSome_of_eq_some hthreat)
    exact ⟨receiver, found, hfound, hmem⟩
  · rintro ⟨receiver, member, hmember, hmem⟩
    obtain ⟨threat, hthreat⟩ := Option.isSome_iff_exists.1
      ((@memberThreat_isSome (receiver, some member)).2 ⟨member, hmember, rfl⟩)
    exact ⟨threat, (receiver, some member), hmem, hthreat⟩

theorem exists_mem_scanAstCall {ud : UnicodeData} {func : PyNode} {args : List PyNode}
    {b : Bindings} :
    (∃ threat, threat ∈ scanAstCall ud func args b) ↔ FlaggedCall b.family func args := by
  have hcallee : (∃ threat, threat ∈ scanCallee ud func args b) ↔
      (∃ receiver, ∃ member ∈ dangerousReceiverMethods.methods receiver,
        (receiver, some member) ∈ Bindings.mayDenote b.family func) ∨
      (∃ binding ∈ getattrBindings, binding ∈ Bindings.mayDenote b.family func) ∧
        ∃ receiver attr rest, args = receiver :: attr :: rest ∧
          ∃ module, (module, none) ∈ Bindings.mayDenote b.family receiver ∧ ∀ value,
            attr = .constStr value → value ∈ dangerousReceiverMethods.methods module := by
    rw [exists_mem_scanCallee, exists_mem_scanGetattrCall]
  rw [FlaggedCall, ← hcallee]
  cases func with
  | name id =>
      rw [scanAstCall]
      split_ifs with hdangerous
      · exact iff_of_true ⟨_, List.mem_singleton_self _⟩ (Or.inl ⟨id, hdangerous, rfl⟩)
      · refine (or_iff_right ?_).symm
        rintro ⟨found, hfound, heq⟩
        cases heq
        exact hdangerous hfound
  | _ =>
      refine (or_iff_right ?_).symm
      rintro ⟨_, _, heq⟩
      cases heq

/-- The scan reports a program exactly when it is flagged. -/
theorem scanAstThreats_ne_nil {ud : UnicodeData} {tree : PyNode} :
    scanAstThreats ud tree ≠ [] ↔ Flagged tree := by
  have hexists : scanAstThreats ud tree ≠ [] ↔ ∃ threat, threat ∈ scanAstThreats ud tree :=
    ⟨List.exists_mem_of_ne_nil _, fun ⟨_, hthreat⟩ => List.ne_nil_of_mem hthreat⟩
  rw [hexists]
  simp only [mem_scanAstThreats, exists_or, Flagged]
  refine or_congr ⟨?_, ?_⟩ ⟨?_, ?_⟩
  · rintro ⟨threat, node, hnode, hthreat⟩
    exact ⟨node, hnode, importThreats_ne_nil.1 (List.ne_nil_of_mem hthreat)⟩
  · rintro ⟨node, hnode, hflagged⟩
    obtain ⟨threat, hthreat⟩ :=
      List.exists_mem_of_ne_nil _ (importThreats_ne_nil.2 hflagged)
    exact ⟨threat, node, hnode, hthreat⟩
  · rintro ⟨threat, node, call, hnode, hcall, hthreat⟩
    cases node with
    | call func args keywords =>
        cases hcall
        refine ⟨func, args, keywords, hnode, ?_⟩
        rw [aliases_eq, ← @exists_mem_scanAstCall ud]
        exact ⟨threat, hthreat⟩
    | _ => cases hcall
  · rintro ⟨func, args, keywords, hnode, hflagged⟩
    rw [aliases_eq, ← @exists_mem_scanAstCall ud] at hflagged
    obtain ⟨threat, hthreat⟩ := hflagged
    exact ⟨threat, _, (func, args), hnode, rfl, hthreat⟩

/-- What the family knows of a scope, it knows of a callee's value. -/
theorem Tracks.mayDenote (h : Tracks F scope) {callee : PyNode} {value : Denoted}
    {binding : Binding} (hvalue : scope.evaluate callee = some value)
    (hbinding : value.binding = some binding) : binding ∈ Bindings.mayDenote F callee := by
  cases callee with
  | name id => exact h id value binding hvalue hbinding
  | attributeExpr inner attr =>
      cases inner with
      | name id =>
          obtain ⟨held, hheld, rfl⟩ := Option.map_eq_some_iff.1 hvalue
          obtain ⟨receiver, hmodule, rfl, -⟩ := attrValue_binding hbinding
          exact ⟨receiver, h id held _ hheld hmodule, rfl⟩
      | _ => cases hvalue; cases hbinding
  | _ => cases hvalue; cases hbinding

/-- A call whose callee may be dangerous is reported, or an import is. -/
theorem flagged_of_call {tree callee : PyNode} (hcall : Calls tree callee)
    (hdangerous : MayBeDangerous tree callee) : Flagged tree := by
  obtain ⟨run, hrun, value, hvalue, hmember⟩ := hdangerous
  by_cases hclean : ∀ node ∈ run, importThreats node = []
  · obtain ⟨args, keywords, hnode⟩ := hcall
    cases value with
    | member receiver name =>
        have htracks := tracks_after (aliases_closed tree) hrun hclean
        exact Or.inr ⟨callee, args, keywords, hnode, Or.inr (Or.inl
          ⟨receiver, name, hmember, htracks.mayDenote hvalue rfl⟩)⟩
    | module | unknown => exact hmember.elim
  · push Not at hclean
    obtain ⟨node, hnode, hthreat⟩ := hclean
    exact Or.inl ⟨node, hrun node hnode, importThreats_ne_nil.1 hthreat⟩

/-- Exactly when every invocation is covered: each decorator that may be dangerous
stands in a program with an import or a call that is reported. -/
theorem detects_iff (ud : UnicodeData) (tree : PyNode) :
    Detects ud tree ↔
      ∀ decorator, Decorates tree decorator → MayBeDangerous tree decorator →
        Flagged tree := by
  constructor
  · intro h decorator hdecorator hdangerous
    exact scanAstThreats_ne_nil.1 (h decorator (Or.inr hdecorator) hdangerous)
  · rintro h callee (hcall | hdecorator) hdangerous
    · exact scanAstThreats_ne_nil.2 (flagged_of_call hcall hdangerous)
    · exact scanAstThreats_ne_nil.2 (h callee hdecorator hdangerous)

/-- `@exec` over `@input` over `class X: pass`: it reads a text and executes it. -/
def decoratedClass : PyNode :=
  .other [.definition [.other []] [.name (py "exec"), .name (py "input")] []]

theorem decorator_not_detected :
    ¬ Detects ⟨fun _ => false, fun _ => true, id, id⟩ decoratedClass := by
  intro h
  have hdecorates : Decorates decoratedClass (.name (py "exec")) :=
    ⟨_, _, _, .child (List.mem_singleton_self _) .root, List.mem_cons_self⟩
  have hdangerous : MayBeDangerous decoratedClass (.name (py "exec")) :=
    ⟨[], by simp, .member (py "builtins") (py "exec"), by decide +kernel, by
      change py "exec" ∈ _
      decide +kernel⟩
  refine h _ (Or.inr hdecorates) hdangerous ?_
  rw [scanAstThreats_eq]
  simp [decoratedClass, walk, walkFrom, PyNode.children, importThreats, callOf]

/-- The guard blocks a parsed program with a call that may be dangerous. -/
theorem verifyCode_blocks_call {ud : UnicodeData} {parse : PyStr → Except PyExc PyNode}
    {scanRegexThreats : PyStr → List PyStr} {payload : PyDict} {code : PyStr}
    {tree callee : PyNode} (hcode : dictGet payload (py "code") = some (.str code))
    (hempty : code ≠ []) (hsize : PyJson.utf8Size code ≤ maxCodeBytes)
    (hparse : parse code = .ok tree) (hcall : Calls tree callee)
    (hdangerous : MayBeDangerous tree callee) :
    ∃ result, verifyCode (pyAnalysis ud parse scanRegexThreats) payload = .ok result ∧
      result.status = none ∧ result.threats = some (scanAstThreats ud tree) := by
  have hthreats : scanAstThreats ud tree ≠ [] :=
    scanAstThreats_ne_nil.2 (flagged_of_call hcall hdangerous)
  refine ⟨scanCode (pyAnalysis ud parse scanRegexThreats) code tree, ?_, ?_⟩
  · rw [verifyCode, hcode]
    simp [PyVal.truthy, hempty, pyAnalysis, hparse, Nat.not_lt.2 hsize]
  · simp [scanCode, pyAnalysis, hthreats, codeBlocked]

end QwedA2A
