/-
The structural layer of the code guard.  One walk over the tree collects its calls,
reports dangerous imports and records what names may be bound to; then every call
is judged by what its callee may be.
-/
import QwedA2A.CodeBindings
import QwedA2A.CodeGuard
import QwedA2A.LogicGuard
import Mathlib.Logic.Relation

namespace QwedA2A

/-- `ast.iter_child_nodes`. -/
def PyNode.children : PyNode → List PyNode
  | .name _ | .constStr _ | .importNames _ | .importFrom .. => []
  | .attributeExpr value _ => [value]
  | .call func args keywords => func :: (args ++ keywords)
  | .sequence elts => elts
  | .namedExpr target value => [target, value]
  | .assign targets value => targets ++ [value]
  | .annAssign target annotation value => target :: annotation :: value.toList
  | .definition before decorators after => before ++ (decorators ++ after)
  | .other children => children

theorem sum_sizeOf_le (nodes : List PyNode) : (nodes.map sizeOf).sum ≤ sizeOf nodes := by
  induction nodes with
  | nil => simp
  | cons node nodes ih =>
      simp only [List.map_cons, List.sum_cons, List.cons.sizeOf_spec]
      omega

theorem PyNode.sum_sizeOf_children (node : PyNode) :
    (node.children.map sizeOf).sum < sizeOf node := by
  cases node with
  | name | constStr | importNames | importFrom => simp [children]
  | attributeExpr value attr => simp [children]; omega
  | call func args keywords =>
      have hargs := sum_sizeOf_le args
      have hkeywords := sum_sizeOf_le keywords
      simp [children]
      omega
  | sequence elts =>
      have helts := sum_sizeOf_le elts
      simp [children]
      omega
  | namedExpr target value => simp [children]
  | assign targets value =>
      have htargets := sum_sizeOf_le targets
      simp [children]
      omega
  | annAssign target annotation value =>
      cases value with
      | none => simp [children]
      | some value => simp [children]; omega
  | definition before decorators after =>
      have hbefore := sum_sizeOf_le before
      have hdecorators := sum_sizeOf_le decorators
      have hafter := sum_sizeOf_le after
      simp [children]
      omega
  | other nodes =>
      have hnodes := sum_sizeOf_le nodes
      simp [children]
      omega

/-- The loop of `ast.walk`, breadth first over a queue. -/
def walkFrom : List PyNode → List PyNode
  | [] => []
  | node :: todo => node :: walkFrom (todo ++ node.children)
termination_by todo => (todo.map sizeOf).sum
decreasing_by
  have := node.sum_sizeOf_children
  simp only [List.map_append, List.sum_append, List.map_cons, List.sum_cons]
  omega

/-- `ast.walk`. -/
def walk (tree : PyNode) : List PyNode := walkFrom [tree]

def dangerousCallNames : List PyStr :=
  [py "eval", py "exec", py "compile", py "__import__"]

/-- The ways the exec and spawn families are spelled out. -/
def execSuffixes : List PyStr :=
  [py "l", py "le", py "lp", py "lpe", py "v", py "ve", py "vp", py "vpe"]

/-- Process-execution functions of the os module and its platform backends. -/
def osExecFuncs : List PyStr :=
  [py "system", py "popen", py "startfile", py "posix_spawn", py "posix_spawnp"] ++
    execSuffixes.map (py "exec" ++ ·) ++ execSuffixes.map (py "spawn" ++ ·)

def dangerousReceiverMethods : Receivers :=
  [(py "subprocess", [py "run", py "Popen", py "call", py "check_output",
      py "check_call", py "popen"]),
    (py "os", osExecFuncs),
    (py "posix", osExecFuncs),
    (py "nt", osExecFuncs),
    (py "builtins", dangerousCallNames),
    (py "__builtins__", dangerousCallNames)]

def implicitTable : BindingTable :=
  Bindings.implicitBindings dangerousReceiverMethods dangerousCallNames

def dangerousImports : List PyStr :=
  [py "subprocess", py "importlib", py "ctypes", py "pty"]

/-- getattr reached as a builtin, as builtins.getattr or __builtins__.getattr. -/
def getattrBindings : List Binding :=
  builtinsModules.map fun module => (module, some (py "getattr"))

/-- `name.split('.')[0]`. -/
def rootOf (name : PyStr) : PyStr := name.takeWhile fun c => decide (c ≠ 0x2E)

/-- Detect dangerous module imports in a single Import node. -/
def scanAstImport (names : List Alias) : List PyStr :=
  (names.filter fun entry => decide (rootOf entry.name ∈ dangerousImports)).map fun entry =>
    py "import:" ++ rootOf entry.name

def scanAstImportFrom (module : PyStr) (names : List Alias) : List PyStr :=
  let root := rootOf module
  let rooted := if root ∈ dangerousImports then [py "import:" ++ root] else []
  match dangerousReceiverMethods.lookup module with
  | none => rooted
  | some methods =>
      rooted ++
        (names.filter fun entry => decide (entry.name = py "*" ∨ entry.name ∈ methods)).map
          fun entry => py "import:" ++ module ++ py "." ++ entry.name

/-- The text reported for a getattr whose receiver may be this binding: an
attribute chosen at runtime on a dangerous module cannot be bounded. -/
def getattrThreat (ud : UnicodeData) (attr : PyNode) (binding : Binding) :
    Option PyStr :=
  if binding.2 ≠ none then none
  else
    match attr with
    | .constStr value =>
        if value ∈ dangerousReceiverMethods.methods binding.1 then
          some (py "call:getattr(" ++ binding.1 ++ py ", " ++ reprStr ud value ++ py ")")
        else none
    | _ => some (py "call:getattr(" ++ binding.1 ++ py ", <dynamic>)")

/-- getattr(os, "system") or getattr(os, name) on a dangerous module, through any
alias of getattr. -/
def scanGetattrCall (ud : UnicodeData) (args : List PyNode) (bindings : Bindings) :
    List PyStr :=
  match args with
  | receiver :: attr :: _ =>
      ((bindings.resolve receiver).filterMap (getattrThreat ud attr)).insertionSort (· ≤ ·)
  | _ => []

/-- The text reported for a member that a callee may be. -/
def memberThreat (binding : Binding) : Option PyStr :=
  match binding with
  | (module, some member) =>
      if member ∈ dangerousReceiverMethods.methods module then
        some (py "call:" ++ module ++ py "." ++ member ++ py "()")
      else none
  | (_, none) => none

/-- Receiver-scoped calls, resolved through every binding the callee may have. -/
def scanCallee (ud : UnicodeData) (func : PyNode) (args : List PyNode)
    (bindings : Bindings) : List PyStr :=
  let targets := bindings.resolve func
  let threats := (targets.filterMap memberThreat).insertionSort (· ≤ ·)
  if targets.any fun target => decide (target ∈ getattrBindings) then
    threats ++ scanGetattrCall ud args bindings
  else threats

/-- Detect dangerous function calls in a single Call node.  A dangerous builtin
called by its name is always flagged. -/
def scanAstCall (ud : UnicodeData) (func : PyNode) (args : List PyNode)
    (bindings : Bindings) : List PyStr :=
  match func with
  | .name id =>
      if id ∈ dangerousCallNames then [py "call:" ++ id ++ py "()"]
      else scanCallee ud func args bindings
  | _ => scanCallee ud func args bindings

/-- What the walk has collected so far. -/
structure ScanState where
  calls : List (PyNode × List PyNode) := []
  threats : List PyStr := []
  bindings : Bindings := ⟨dangerousReceiverMethods, implicitTable, [], []⟩

def scanNode (s : ScanState) (node : PyNode) : ScanState :=
  match node with
  | .call func args _ => { s with calls := s.calls ++ [(func, args)] }
  | .importNames names =>
      { s with
        threats := s.threats ++ scanAstImport names
        bindings := s.bindings.addImport names }
  | .importFrom (some module) names _ =>
      if module ≠ [] then
        { s with
          threats := s.threats ++ scanAstImportFrom module names
          bindings := s.bindings.addImportFrom module names }
      else { s with bindings := s.bindings.addAssignment node }
  | _ => { s with bindings := s.bindings.addAssignment node }

/-- Collect threats from a tree: dangerous imports and calls. -/
def scanAstThreats (ud : UnicodeData) (tree : PyNode) : List PyStr :=
  let s := (walk tree).foldl scanNode {}
  let bindings := s.bindings.propagate
  s.threats ++ s.calls.flatMap fun call => scanAstCall ud call.1 call.2 bindings

/-- The guard's analysis of Python code, with the parser and the textual scan as
they come. -/
def pyAnalysis (ud : UnicodeData) (parse : PyStr → Except PyExc PyNode)
    (scanRegexThreats : PyStr → List PyStr) : CodeAnalysis PyNode where
  parse := parse
  scanAstThreats := scanAstThreats ud
  scanRegexThreats := scanRegexThreats

/-- A node of a tree: its root or a node below. -/
inductive PyNode.Within (node : PyNode) : PyNode → Prop where
  | root : Within node node
  | child {child tree : PyNode} : child ∈ tree.children → Within node child →
      Within node tree

theorem PyNode.within_iff {node tree : PyNode} :
    node.Within tree ↔ node = tree ∨ ∃ child ∈ tree.children, node.Within child := by
  constructor
  · intro h
    cases h with
    | root => exact Or.inl rfl
    | child hchild hwithin => exact Or.inr ⟨_, hchild, hwithin⟩
  · rintro (rfl | ⟨child, hchild, hwithin⟩)
    · exact .root
    · exact .child hchild hwithin

theorem mem_walkFrom {todo : List PyNode} {node : PyNode} :
    node ∈ walkFrom todo ↔ ∃ tree ∈ todo, node.Within tree := by
  induction todo using walkFrom.induct with
  | case1 => simp [walkFrom]
  | case2 tree todo ih =>
      rw [walkFrom, List.mem_cons, ih]
      simp only [List.mem_append, List.mem_cons, or_and_right, exists_or, exists_eq_left]
      rw [@PyNode.within_iff node tree, or_assoc]
      exact or_congr_right or_comm

/-- The walk visits every node of the tree, and nothing else. -/
theorem mem_walk {tree node : PyNode} : node ∈ walk tree ↔ node.Within tree := by
  rw [walk, mem_walkFrom]
  simp

def callOf : PyNode → Option (PyNode × List PyNode)
  | .call func args _ => some (func, args)
  | _ => none

def importThreats : PyNode → List PyStr
  | .importNames names => scanAstImport names
  | .importFrom (some module) names _ =>
      if module ≠ [] then scanAstImportFrom module names else []
  | _ => []

def importedPairs : PyNode → BindingTable
  | .importNames names => Bindings.importPairs dangerousReceiverMethods names
  | .importFrom (some module) names _ =>
      if module ≠ [] then Bindings.importFromPairs dangerousReceiverMethods module names
      else []
  | _ => []

def recorded (tree : PyNode) : Bindings where
  receivers := dangerousReceiverMethods
  implicit := implicitTable
  values := (walk tree).flatMap importedPairs
  edges := (walk tree).flatMap Bindings.assignmentEdges

/-- One node adds its own call, threats, bindings and edges. -/
theorem scanNode_eq {s : ScanState} (h : s.bindings.receivers = dangerousReceiverMethods)
    (node : PyNode) :
    scanNode s node =
      { calls := s.calls ++ (callOf node).toList
        threats := s.threats ++ importThreats node
        bindings :=
          { s.bindings with
            values := s.bindings.values ++ importedPairs node
            edges := s.bindings.edges ++ Bindings.assignmentEdges node } } := by
  cases node with
  | importNames names =>
      simp [scanNode, callOf, importThreats, importedPairs, Bindings.assignmentEdges,
        Bindings.addImport, h]
  | importFrom module names level =>
      cases module with
      | none =>
          simp [scanNode, callOf, importThreats, importedPairs, Bindings.assignmentEdges,
            Bindings.addAssignment]
      | some module =>
          by_cases hempty : module = []
          · simp [scanNode, callOf, importThreats, importedPairs,
              Bindings.assignmentEdges, Bindings.addAssignment, hempty]
          · simp [scanNode, callOf, importThreats, importedPairs,
              Bindings.assignmentEdges, Bindings.addImportFrom, h, hempty]
  | _ =>
      simp [scanNode, callOf, importThreats, importedPairs, Bindings.assignmentEdges,
        Bindings.addAssignment]

theorem foldl_scanNode {s : ScanState}
    (h : s.bindings.receivers = dangerousReceiverMethods) (nodes : List PyNode) :
    nodes.foldl scanNode s =
      { calls := s.calls ++ nodes.filterMap callOf
        threats := s.threats ++ nodes.flatMap importThreats
        bindings :=
          { s.bindings with
            values := s.bindings.values ++ nodes.flatMap importedPairs
            edges := s.bindings.edges ++ nodes.flatMap Bindings.assignmentEdges } } := by
  induction nodes generalizing s with
  | nil => simp
  | cons node nodes ih =>
      rw [List.foldl_cons, scanNode_eq h, ih]
      · cases hcall : callOf node <;> simp [hcall]
      · exact h

theorem scanAstThreats_eq (ud : UnicodeData) (tree : PyNode) :
    scanAstThreats ud tree =
      (walk tree).flatMap importThreats ++
        ((walk tree).filterMap callOf).flatMap fun call =>
          scanAstCall ud call.1 call.2 (recorded tree).propagate := by
  simp only [scanAstThreats]
  rw [foldl_scanNode rfl]
  rfl

theorem mem_scanAstThreats {ud : UnicodeData} {tree : PyNode} {threat : PyStr} :
    threat ∈ scanAstThreats ud tree ↔
      (∃ node, node.Within tree ∧ threat ∈ importThreats node) ∨
        ∃ node call, node.Within tree ∧ callOf node = some call ∧
          threat ∈ scanAstCall ud call.1 call.2 (recorded tree).propagate := by
  rw [scanAstThreats_eq, List.mem_append]
  refine or_congr ?_ ?_
  · simp only [List.mem_flatMap, mem_walk]
  · simp only [List.mem_flatMap, List.mem_filterMap, mem_walk]
    exact ⟨fun ⟨call, ⟨node, hnode, hcall⟩, hthreat⟩ => ⟨node, call, hnode, hcall, hthreat⟩,
      fun ⟨node, call, hnode, hcall, hthreat⟩ => ⟨call, ⟨node, hnode, hcall⟩, hthreat⟩⟩

theorem mem_scanGetattrCall {ud : UnicodeData} {args : List PyNode} {b : Bindings}
    {threat : PyStr} :
    threat ∈ scanGetattrCall ud args b ↔
      ∃ receiver attr rest, args = receiver :: attr :: rest ∧
        ∃ binding ∈ b.resolve receiver, getattrThreat ud attr binding = some threat := by
  match args with
  | [] => simp [scanGetattrCall]
  | [_] => simp [scanGetattrCall]
  | receiver :: attr :: rest =>
      simp only [scanGetattrCall, List.mem_insertionSort, List.mem_filterMap]
      exact ⟨fun h => ⟨receiver, attr, rest, rfl, h⟩,
        fun ⟨_, _, _, hargs, h⟩ => by cases hargs; exact h⟩

theorem mem_scanCallee {ud : UnicodeData} {func : PyNode} {args : List PyNode}
    {b : Bindings} {threat : PyStr} :
    threat ∈ scanCallee ud func args b ↔
      (∃ target ∈ b.resolve func, memberThreat target = some threat) ∨
        (∃ target ∈ b.resolve func, target ∈ getattrBindings) ∧
          threat ∈ scanGetattrCall ud args b := by
  have hsorted : threat ∈ ((b.resolve func).filterMap memberThreat).insertionSort (· ≤ ·) ↔
      ∃ target ∈ b.resolve func, memberThreat target = some threat := by
    rw [List.mem_insertionSort, List.mem_filterMap]
  rw [scanCallee]
  split_ifs with hgetattr
  · rw [List.any_eq_true] at hgetattr
    simp only [decide_eq_true_eq] at hgetattr
    rw [List.mem_append, hsorted]
    exact or_congr_right (by simp only [hgetattr, true_and])
  · rw [List.any_eq_true] at hgetattr
    simp only [decide_eq_true_eq] at hgetattr
    rw [hsorted]
    exact ⟨Or.inl, fun h => h.elim id fun hcall => absurd hcall.1 hgetattr⟩

/-- Two neighbouring statements are exchanged, in a block at any depth. -/
inductive PyNode.Exchanged : PyNode → PyNode → Prop where
  | neighbours (before : List PyNode) (first second : PyNode) (after : List PyNode) :
      Exchanged (.other (before ++ first :: second :: after))
        (.other (before ++ second :: first :: after))
  | inside (before after : List PyNode) {first second : PyNode} :
      Exchanged first second →
        Exchanged (.other (before ++ first :: after)) (.other (before ++ second :: after))
  | body (decorators after : List PyNode) {block block' : List PyNode} :
      Exchanged (.other block) (.other block') →
        Exchanged (.definition block decorators after)
          (.definition block' decorators after)

/-- The same program with its statements in another order. -/
def PyNode.Reordered : PyNode → PyNode → Prop := Relation.ReflTransGen PyNode.Exchanged

def PyNode.isScanned : PyNode → Bool
  | .definition .. | .other _ => false
  | _ => true

theorem within_other {node : PyNode} (h : node.isScanned) {children : List PyNode} :
    node.Within (.other children) ↔ ∃ child ∈ children, node.Within child := by
  rw [PyNode.within_iff]
  exact or_iff_right (by rintro rfl; cases h)

theorem within_definition {node : PyNode} (h : node.isScanned)
    {before decorators after : List PyNode} :
    node.Within (.definition before decorators after) ↔
      node.Within (.other before) ∨ ∃ child ∈ decorators ++ after, node.Within child := by
  rw [within_other h, PyNode.within_iff]
  simp only [PyNode.children, List.mem_append, or_and_right, exists_or]
  exact or_iff_right (by rintro rfl; cases h)

theorem PyNode.Exchanged.within {tree tree' node : PyNode} (h : tree.Exchanged tree')
    (hnode : node.isScanned) : node.Within tree ↔ node.Within tree' := by
  induction h with
  | neighbours before first second after =>
      rw [within_other hnode, within_other hnode]
      have hperm := (List.Perm.swap second first after).append_left before
      exact exists_congr fun child => and_congr_left fun _ => hperm.mem_iff
  | inside before after _ ih =>
      rw [within_other hnode, within_other hnode]
      simp only [List.mem_append, List.mem_cons, or_and_right, exists_or, exists_eq_left, ih]
  | body decorators after _ ih =>
      rw [within_definition hnode, within_definition hnode, ih]

theorem PyNode.Reordered.within {tree tree' node : PyNode} (h : tree.Reordered tree')
    (hnode : node.isScanned) : node.Within tree ↔ node.Within tree' := by
  induction h with
  | refl => rfl
  | tail _ hlast ih => rw [ih, hlast.within hnode]

/-- What holds of scanned nodes only is found in the one tree as in the other. -/
theorem PyNode.Reordered.exists_within {tree tree' : PyNode} (h : tree.Reordered tree')
    {p : PyNode → Prop} (hp : ∀ node, p node → node.isScanned) :
    (∃ node, node.Within tree ∧ p node) ↔ ∃ node, node.Within tree' ∧ p node :=
  exists_congr fun node => and_congr_left fun hnode => h.within (hp node hnode)

theorem isScanned_of_pair {node : PyNode} {pair : PyStr × Binding}
    (h : pair ∈ importedPairs node) : node.isScanned := by
  cases node <;> first | rfl | simp [importedPairs] at h

theorem isScanned_of_edge {node : PyNode} {edge : Edge}
    (h : edge ∈ Bindings.assignmentEdges node) : node.isScanned := by
  cases node <;> first | rfl | simp [Bindings.assignmentEdges] at h

theorem isScanned_of_threat {node : PyNode} {threat : PyStr}
    (h : threat ∈ importThreats node) : node.isScanned := by
  cases node <;> first | rfl | simp [importThreats] at h

theorem isScanned_of_call {node : PyNode} {call : PyNode × List PyNode}
    (h : callOf node = some call) : node.isScanned := by
  cases node <;> first | rfl | simp [callOf] at h

/-- Programs that record the same bindings and assignments have the same closed
families. -/
theorem closedFamily_congr {b b' : Bindings}
    (hvalues : ∀ pair, pair ∈ b.values ↔ pair ∈ b'.values)
    (hedges : ∀ edge, edge ∈ b.edges ↔ edge ∈ b'.edges)
    (hreceivers : b.receivers = b'.receivers) (himplicit : b.implicit = b'.implicit)
    {F : PyStr → Set Binding} (h : b.ClosedFamily F) : b'.ClosedFamily F where
  implicit name binding hmem := h.implicit name binding (himplicit ▸ hmem)
  imported name binding hmem :=
    h.imported name binding (Bindings.mem_entry.2 ((hvalues _).2 (Bindings.mem_entry.1 hmem)))
  edges edge hedge binding hmem new hnew :=
    h.edges edge ((hedges edge).2 hedge) binding hmem new (hreceivers ▸ hnew)

/-- The order of statements does not change what a name may be bound to. -/
theorem PyNode.Reordered.family_eq {tree tree' : PyNode} (h : tree.Reordered tree') :
    (recorded tree).propagate.family = (recorded tree').propagate.family := by
  have hvalues : ∀ pair, pair ∈ (recorded tree).values ↔ pair ∈ (recorded tree').values := by
    intro pair
    simp only [recorded, List.mem_flatMap, mem_walk]
    exact h.exists_within fun _ => isScanned_of_pair
  have hedges : ∀ edge, edge ∈ (recorded tree).edges ↔ edge ∈ (recorded tree').edges := by
    intro edge
    simp only [recorded, List.mem_flatMap, mem_walk]
    exact h.exists_within fun _ => isScanned_of_edge
  have hclosed : {F | (recorded tree).ClosedFamily F} = {F | (recorded tree').ClosedFamily F} :=
    Set.ext fun F => ⟨closedFamily_congr hvalues hedges rfl rfl,
      closedFamily_congr (fun pair => (hvalues pair).symm) (fun edge => (hedges edge).symm)
        rfl rfl⟩
  have hleast := (recorded tree).propagate_isLeast
  rw [hclosed] at hleast
  exact hleast.unique (recorded tree').propagate_isLeast

/-- A call is judged by the sets of bindings alone. -/
theorem mem_scanAstCall_congr {ud : UnicodeData} {b b' : Bindings}
    (h : b.family = b'.family) {func : PyNode} {args : List PyNode} {threat : PyStr} :
    threat ∈ scanAstCall ud func args b ↔ threat ∈ scanAstCall ud func args b' := by
  have hcallee : threat ∈ scanCallee ud func args b ↔ threat ∈ scanCallee ud func args b' := by
    simp only [mem_scanCallee, mem_scanGetattrCall, Bindings.mem_resolve, h]
  cases func with
  | name id =>
      rw [scanAstCall, scanAstCall]
      split_ifs
      · rfl
      · exact hcallee
  | _ => exact hcallee

theorem PyNode.Reordered.mem_scanAstThreats {ud : UnicodeData} {tree tree' : PyNode}
    (h : tree.Reordered tree') {threat : PyStr} :
    threat ∈ scanAstThreats ud tree ↔ threat ∈ scanAstThreats ud tree' := by
  rw [QwedA2A.mem_scanAstThreats, QwedA2A.mem_scanAstThreats]
  refine or_congr (h.exists_within fun _ => isScanned_of_threat) ?_
  simp only [mem_scanAstCall_congr h.family_eq, exists_and_left]
  exact h.exists_within fun _ ⟨_, hcall, _⟩ => isScanned_of_call hcall

/-- However the first work is ordered, propagation ends, and then every name has
exactly the bindings of the least closed family; so the threats found in a program
do not depend on the order of its statements. -/
theorem propagate_least_family (ud : UnicodeData) (b : Bindings)
    (work : List (PyStr × Binding)) (hwork : ∀ pair, pair ∈ work ↔ pair ∈ b.pending)
    (tree tree' : PyNode) (hreordered : tree.Reordered tree') :
    (∃ turns, (b.propagated work turns).work = []) ∧
      (∀ turns, (b.propagated work turns).work = [] →
        IsLeast {F | b.ClosedFamily F} (b.after work turns).family) ∧
      IsLeast {F | b.ClosedFamily F} b.propagate.family ∧
      ∀ threat, threat ∈ scanAstThreats ud tree ↔ threat ∈ scanAstThreats ud tree' :=
  ⟨⟨_, Bindings.done_of_le hwork le_rfl⟩, fun _ hdone => Bindings.family_isLeast hwork hdone,
    b.propagate_isLeast, fun _ => hreordered.mem_scanAstThreats⟩

/-- `x = os; y = x; x = y; s = y.system`: a cycle with a member taken on the way. -/
def cyclicBindings : Bindings where
  receivers := dangerousReceiverMethods
  implicit := implicitTable
  edges :=
    [⟨py "os", py "x", none⟩, ⟨py "x", py "y", none⟩, ⟨py "y", py "x", none⟩,
      ⟨py "y", py "s", some (py "system")⟩]

/-- Through the cycle, from the last first; and a call written before its import. -/
theorem propagate_least_family_cycle :
    (∃ turns, (cyclicBindings.propagated cyclicBindings.pending.reverse turns).work = []) ∧
      (∀ turns, (cyclicBindings.propagated cyclicBindings.pending.reverse turns).work = [] →
        IsLeast {F | cyclicBindings.ClosedFamily F}
          (cyclicBindings.after cyclicBindings.pending.reverse turns).family) ∧
      IsLeast {F | cyclicBindings.ClosedFamily F} cyclicBindings.propagate.family ∧
      ∀ threat,
        threat ∈ scanAstThreats ⟨fun _ => false, fun _ => true, id, id⟩
            (.other [.importNames [⟨py "os", some (py "o")⟩],
              .call (.attributeExpr (.name (py "o")) (py "system")) [] []]) ↔
          threat ∈ scanAstThreats ⟨fun _ => false, fun _ => true, id, id⟩
            (.other [.call (.attributeExpr (.name (py "o")) (py "system")) [] [],
              .importNames [⟨py "os", some (py "o")⟩]]) :=
  propagate_least_family _ cyclicBindings _ (fun _ => List.mem_reverse) _ _
    (.single (.neighbours [] _ _ []))

end QwedA2A
