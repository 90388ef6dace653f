import Mathlib.Data.List.Basic

/-!
# Schedule trees and their transformers

`dace/sdfg/analysis/schedule_tree/treenodes.py` defines schedule trees: scopes
(`ScheduleTreeScope` and its subclasses) hold a list of `children`, and every node holds a
`parent` link to its scope.  `ScheduleNodeTransformer` rewrites a tree the way Python's
`ast.NodeTransformer` rewrites an AST: `visit` dispatches to a `visit_scope` or
`visit_<ClassName>` method, and `generic_visit` replaces the children of a scope by the
results of visiting them (`None` deletes a child, a node replaces it, a list is spliced in)
and makes the scope the parent of every new child.

Python nodes are objects, compared by identity and updated in place.  Here a tree is a
value: each node carries a handle (`uid`) for its identity and the handle of its parent.
The model is of runs that never put one node object at two positions, on which the value
and the object graph agree.  A `visit_*` method is any
function of the node it is given and of the node as `self.generic_visit(node)` would leave
it, which the method may call.

A transformer without methods gives back every consistent tree as it was
(`transformer_without_methods_keeps_tree`).  `visit` of a list is not `generic_visit`'s loop:
it keeps a list a method returns as one element of its result, so the two agree exactly when
no element's visit returns a list (`Transformer.visitList_eq_flat_iff`).
-/

namespace DaceLowering

/-! ### Trees -/

/-- A `LoopRegion` as `LoopScope.as_string` reads it.  `init_statement` and
    `update_statement` are `None` or a code block, given by its `as_string`. -/
structure LoopRegionInfo where
  initStatement : Option String := none
  updateStatement : Option String := none
  loopVariable : String := ""
  loopCondition : String
  inverted : Bool := false
  updateBeforeCondition : Bool := false
  deriving DecidableEq, Repr

/-- The class of a schedule-tree node with the fields its `as_string` reads.  Code blocks
    stand for their `as_string`; memlets, subsets, shapes and symbols for their `str`. -/
inductive NodeClass where
  /-- `ScheduleTreeNode` itself -/
  | scheduleTreeNode
  /-- `ScheduleTreeScope` itself -/
  | scheduleTreeScope
  /-- a subclass of `ScheduleTreeScope` that keeps its `as_string` -/
  | controlFlowScope
  /-- a subclass of `ScheduleTreeScope` that keeps its `as_string` -/
  | dataflowScope
  | gBlock
  | stateLabel (stateName : String)
  | gotoNode (target : Option String)
  | assignNode (name value : String)
  | loopScope (loop : LoopRegionInfo)
  | ifScope (condition : String)
  | stateIfScope (condition : String)
  | breakNode
  | continueNode
  | elifScope (condition : String)
  | elseScope
  /-- the map's `params` and `dim_to_string` of each dimension of its `range` -/
  | mapScope (params ranges : List String)
  | consumeScope (peIndex numPes : String) (condition : Option String)
  | pipelineScope (params ranges : List String)
  /-- the values of `in_memlets` and of `out_memlets` -/
  | taskletNode (inMemlets outMemlets : List String)
  /-- the memlets, `type(self.node).__name__`, and the node's own properties with their
      values -/
  | libraryCall (inMemlets outMemlets : List String) (libname : String)
      (ownProperties : List (String × String))
  /-- `target`, the memlet's `data` and `subset`, its `other_subset` and whether every
      `min_element()` of it is `0`, and its `wcr` -/
  | copyNode (target data subset : String) (otherSubset : Option String)
      (otherSubsetAtOrigin : Bool) (wcr : Option String)
  | dynScopeCopyNode (target data subset : String)
  | viewNode (target memlet shape : String)
  | nView (target memlet shape : String)
  /-- `target`, the memlet, and the class name of `src_desc` when it is a `CodeNode` -/
  | refSetNode (target memlet : String) (srcCodeNode : Option String)
  deriving DecidableEq, Repr

/-- `node.__class__.__name__` -/
def NodeClass.name : NodeClass → String
  | .scheduleTreeNode => "ScheduleTreeNode"
  | .scheduleTreeScope => "ScheduleTreeScope"
  | .controlFlowScope => "ControlFlowScope"
  | .dataflowScope => "DataflowScope"
  | .gBlock => "GBlock"
  | .stateLabel _ => "StateLabel"
  | .gotoNode _ => "GotoNode"
  | .assignNode _ _ => "AssignNode"
  | .loopScope _ => "LoopScope"
  | .ifScope _ => "IfScope"
  | .stateIfScope _ => "StateIfScope"
  | .breakNode => "BreakNode"
  | .continueNode => "ContinueNode"
  | .elifScope _ => "ElifScope"
  | .elseScope => "ElseScope"
  | .mapScope _ _ => "MapScope"
  | .consumeScope _ _ _ => "ConsumeScope"
  | .pipelineScope _ _ => "PipelineScope"
  | .taskletNode _ _ => "TaskletNode"
  | .libraryCall .. => "LibraryCall"
  | .copyNode .. => "CopyNode"
  | .dynScopeCopyNode .. => "DynScopeCopyNode"
  | .viewNode .. => "ViewNode"
  | .nView .. => "NView"
  | .refSetNode .. => "RefSetNode"

/-- What the transformer reads and writes of every node: its identity and the identity of
    its `parent` scope; and its class, with the fields `as_string` reads. -/
structure NodeInfo where
  uid : Nat
  parent : Option Nat := none
  kind : NodeClass := .scheduleTreeNode
  deriving DecidableEq, Repr

/-- The name of the node's class, which `visit` dispatches on. -/
def NodeInfo.cls (i : NodeInfo) : String := i.kind.name

/-- A schedule-tree node: a leaf (`ScheduleTreeNode`), or a scope (`ScheduleTreeScope` and
    its subclasses) with its children. -/
inductive TreeNode where
  | leaf (info : NodeInfo)
  | scope (info : NodeInfo) (children : List TreeNode)
  deriving Repr

/-- The node's own fields. -/
def TreeNode.info : TreeNode → NodeInfo
  | .leaf i => i
  | .scope i _ => i

/-- `node.children`, empty for a leaf. -/
def TreeNode.children : TreeNode → List TreeNode
  | .leaf _ => []
  | .scope _ cs => cs

/-- `val.parent = node`, for a scope `node` with handle `p`. -/
def TreeNode.setParent (p : Nat) : TreeNode → TreeNode
  | .leaf i => .leaf { i with parent := some p }
  | .scope i cs => .scope { i with parent := some p } cs

@[simp] theorem TreeNode.info_setParent (p : Nat) (n : TreeNode) :
    (n.setParent p).info = { n.info with parent := some p } := by
  cases n <;> rfl

@[simp] theorem TreeNode.children_setParent (p : Nat) (n : TreeNode) :
    (n.setParent p).children = n.children := by
  cases n <;> rfl

mutual
/-- Every scope of the tree is the parent of each of its children. -/
def TreeNode.consistent : TreeNode → Bool
  | .leaf _ => true
  | .scope i cs => childrenConsistent i.uid cs

/-- Every node of the list has parent `p`, and its tree is consistent. -/
def childrenConsistent (p : Nat) : List TreeNode → Bool
  | [] => true
  | c :: cs => c.info.parent == some p && c.consistent && childrenConsistent p cs
end

theorem childrenConsistent_iff (p : Nat) (cs : List TreeNode) :
    childrenConsistent p cs = true ↔ ∀ c ∈ cs, c.info.parent = some p ∧ c.consistent = true := by
  induction cs with
  | nil => simp [childrenConsistent]
  | cons c cs ih => simp [childrenConsistent, ih, and_assoc]

/-- A consistent scope is the parent of its children, whose trees are consistent. -/
theorem TreeNode.consistent_iff (i : NodeInfo) (cs : List TreeNode) :
    (TreeNode.scope i cs).consistent = true ↔
      ∀ c ∈ cs, c.info.parent = some i.uid ∧ c.consistent = true := by
  rw [TreeNode.consistent, childrenConsistent_iff]

/-- Consistency does not look at the node's own parent. -/
@[simp] theorem TreeNode.consistent_setParent (p : Nat) (n : TreeNode) :
    (n.setParent p).consistent = n.consistent := by
  cases n <;> rfl

/-- `ScheduleTreeScope(children)`: the scope with its children, each given the scope as its
    parent. -/
def TreeNode.mkScope (i : NodeInfo) (children : List TreeNode) : TreeNode :=
  .scope i (children.map (·.setParent i.uid))

/-- A scope built by its constructor is consistent exactly when its children are. -/
theorem TreeNode.consistent_mkScope (i : NodeInfo) (cs : List TreeNode) :
    (TreeNode.mkScope i cs).consistent = true ↔ ∀ c ∈ cs, c.consistent = true := by
  simp [TreeNode.mkScope, TreeNode.consistent_iff]

/-! ### Transformers -/

/-- What `visit` returns for a node: `None`, a node, or a list of nodes. -/
inductive VisitResult where
  | none
  | node (n : TreeNode)
  | many (ns : List TreeNode)
  deriving Repr

/-- The nodes `generic_visit` puts in place of a visited child: none, the node, or the
    list spliced in. -/
def VisitResult.nodes : VisitResult → List TreeNode
  | .none => []
  | .node n => [n]
  | .many ns => ns

/-- A subclass of `ScheduleNodeTransformer`: its `visit_scope` and its `visit_<ClassName>`
    methods, where defined.  A method gets the node and the node as `generic_visit` leaves
    it. -/
structure Transformer where
  visitScope : Option (TreeNode → TreeNode → VisitResult) := none
  methods : String → Option (TreeNode → TreeNode → VisitResult) := fun _ => none

/-- The method `visit` calls, `generic_visit` where it finds none: `visit_scope` for a
    scope when the transformer has one, else `visit_<ClassName>`. -/
def Transformer.dispatch (t : Transformer) :
    TreeNode → Option (TreeNode → TreeNode → VisitResult)
  | .leaf i => t.methods i.cls
  | .scope i _ => t.visitScope <|> t.methods i.cls

mutual
/-- `ScheduleNodeTransformer.visit(node)` for a node. -/
def Transformer.visit (t : Transformer) : TreeNode → VisitResult
  | .leaf i =>
    match t.dispatch (.leaf i) with
    | some f => f (.leaf i) (.leaf i)
    | none => .node (.leaf i)
  | .scope i cs =>
    let visited := TreeNode.scope i ((t.visitChildren cs).map (·.setParent i.uid))
    match t.dispatch (.scope i cs) with
    | some f => f (.scope i cs) visited
    | none => .node visited

/-- The loop of `generic_visit` over the children of a scope: the nodes of each child's
    result, in order. -/
def Transformer.visitChildren (t : Transformer) : List TreeNode → List TreeNode
  | [] => []
  | c :: cs => (t.visit c).nodes ++ t.visitChildren cs
end

/-- `ScheduleNodeTransformer.generic_visit(node)`: a scope's children replaced by the
    results of visiting them, each with the scope as its parent; a leaf unchanged. -/
def Transformer.genericVisit (t : Transformer) : TreeNode → TreeNode
  | .leaf i => .leaf i
  | .scope i cs => .scope i ((t.visitChildren cs).map (·.setParent i.uid))

/-- `visit` calls the dispatched method with the node and its generic visit, or returns
    the generic visit. -/
theorem Transformer.visit_eq (t : Transformer) (n : TreeNode) :
    t.visit n = match t.dispatch n with
      | some f => f n (t.genericVisit n)
      | none => .node (t.genericVisit n) := by
  cases n <;> rfl

/-- The methods of `t` return consistent trees when given consistent ones. -/
def Transformer.KeepsConsistent (t : Transformer) : Prop :=
  ∀ n f, t.dispatch n = some f → ∀ v, n.consistent = true → v.consistent = true →
    ∀ m ∈ (f n v).nodes, m.consistent = true

/-- `generic_visit` makes a scope consistent once the new children are. -/
theorem Transformer.genericVisit_consistent (t : Transformer) (n : TreeNode)
    (h : ∀ m ∈ t.visitChildren n.children, m.consistent = true) :
    (t.genericVisit n).consistent = true := by
  cases n with
  | leaf i => rfl
  | scope i cs =>
    rw [Transformer.genericVisit, TreeNode.consistent_iff]
    intro c hc
    obtain ⟨m, hm, rfl⟩ := List.mem_map.1 hc
    exact ⟨by simp, by simpa using h m hm⟩

mutual
/-- Visiting a consistent tree gives consistent trees. -/
theorem Transformer.visit_consistent (t : Transformer) (ht : t.KeepsConsistent) :
    ∀ n : TreeNode, n.consistent = true → ∀ m ∈ (t.visit n).nodes, m.consistent = true
  | .leaf i, hn => by
    rw [Transformer.visit_eq]
    cases hf : t.dispatch (.leaf i) with
    | none => simpa [VisitResult.nodes] using hn
    | some f => exact ht _ f hf _ hn hn
  | .scope i cs, hn => by
    have hv : (t.genericVisit (.scope i cs)).consistent = true :=
      t.genericVisit_consistent _ (Transformer.visitChildren_consistent t ht cs fun c hc =>
        ((TreeNode.consistent_iff i cs).1 hn c hc).2)
    rw [Transformer.visit_eq]
    cases hf : t.dispatch (.scope i cs) with
    | none => simpa [VisitResult.nodes] using hv
    | some f => exact ht _ f hf _ hn hv

/-- Visiting consistent children gives consistent new children. -/
theorem Transformer.visitChildren_consistent (t : Transformer) (ht : t.KeepsConsistent) :
    ∀ cs : List TreeNode, (∀ c ∈ cs, c.consistent = true) →
      ∀ m ∈ t.visitChildren cs, m.consistent = true
  | [], _ => by simp [Transformer.visitChildren]
  | c :: cs, h => by
    simp only [Transformer.visitChildren, List.mem_append]
    rintro m (hm | hm)
    · exact Transformer.visit_consistent t ht c (h c (List.mem_cons_self _ _)) m hm
    · exact Transformer.visitChildren_consistent t ht cs
        (fun c hc => h c (List.mem_cons_of_mem _ hc)) m hm
end

/-- Making a node's parent what it already is changes nothing. -/
theorem TreeNode.setParent_of_parent {p : Nat} {n : TreeNode} (h : n.info.parent = some p) :
    n.setParent p = n := by
  rcases n with ⟨⟨u, q, k⟩⟩ | ⟨⟨u, q, k⟩, cs⟩ <;> simp_all [TreeNode.setParent, TreeNode.info]

mutual
/-- A transformer with no method gives back every consistent tree as it was. -/
theorem Transformer.visit_empty : ∀ n : TreeNode, n.consistent = true →
    ({} : Transformer).visit n = .node n
  | .leaf _, _ => rfl
  | .scope i cs, h => by
    have hcs := (TreeNode.consistent_iff i cs).1 h
    -- the children come back as they were, and already have the scope as their parent
    have hmap : cs.map (·.setParent i.uid) = cs :=
      (List.map_congr_left fun c hc => TreeNode.setParent_of_parent (hcs c hc).1).trans
        (List.map_id' cs)
    rw [Transformer.visit_eq]
    simp only [Transformer.dispatch, Transformer.genericVisit,
      Transformer.visitChildren_empty cs fun c hc => (hcs c hc).2, hmap]
    rfl
theorem Transformer.visitChildren_empty : ∀ cs : List TreeNode, (∀ c ∈ cs, c.consistent = true) →
    ({} : Transformer).visitChildren cs = cs
  | [], _ => rfl
  | c :: cs, h => by
    rw [Transformer.visitChildren, Transformer.visit_empty c (h c (List.mem_cons_self _ _)),
      Transformer.visitChildren_empty cs fun c hc => h c (List.mem_cons_of_mem _ hc)]
    rfl
end

/-- Visiting a consistent tree with a transformer that defines no `visit_*` method returns
    the root itself: `generic_visit` gives every scope back its own children, in order, and
    every node keeps its parent. -/
theorem transformer_without_methods_keeps_tree (root : TreeNode)
    (hroot : root.consistent = true) :
    ({} : Transformer).visit root = .node root ∧ ({} : Transformer).genericVisit root = root := by
  have h := Transformer.visit_empty root hroot
  refine ⟨h, ?_⟩
  rw [Transformer.visit_eq] at h
  cases root <;> simpa [Transformer.dispatch] using h

/-! ### Visiting a list -/

/-- `ScheduleNodeTransformer.visit(node)` for a list `node`: the result of visiting each
    element, kept unless it is `None`.  A list a method returns is kept as one element. -/
def Transformer.visitList (t : Transformer) (nodes : List TreeNode) : List VisitResult :=
  nodes.filterMap fun n =>
    match t.visit n with
    | .none => none
    | r => some r

/-- `visit` of a list returns the flat list `generic_visit` would install exactly when no
    element's visit returns a list: a returned list stays one element of the result. -/
theorem Transformer.visitList_eq_flat_iff (t : Transformer) (nodes : List TreeNode) :
    t.visitList nodes = (t.visitChildren nodes).map .node ↔
      ∀ n ∈ nodes, ∀ ns, t.visit n ≠ .many ns := by
  induction nodes with
  | nil => simp [Transformer.visitList, Transformer.visitChildren]
  | cons n rest ih =>
    simp only [Transformer.visitList, List.filterMap_cons] at ih ⊢
    cases hv : t.visit n with
    | none => simpa [Transformer.visitChildren, hv, VisitResult.nodes] using ih
    | node m => simpa [Transformer.visitChildren, hv, VisitResult.nodes] using ih
    | many ns =>
      simp only [Transformer.visitChildren, hv, VisitResult.nodes, List.map_append, List.mem_cons,
        forall_eq_or_imp]
      -- a returned list stays one element, which no flattened node equals
      refine iff_of_false (fun h => ?_) (fun h => h.1 ns rfl)
      simpa using congrArg (VisitResult.many ns ∈ ·) h

/-- A transformer that splices the contents of every `GBlock` into its parent and deletes
    every `GotoNode`. -/
def flattenBlocks : Transformer where
  methods cls :=
    if cls = "GBlock" then some fun _ visited => .many visited.children
    else if cls = "GotoNode" then some fun _ _ => .none
    else none

/-- A root holding a `GBlock` (a state label and a goto) and a tasklet. -/
def blockTree : TreeNode :=
  .scope { uid := 0, kind := .scheduleTreeScope } [
    .scope { uid := 1, parent := some 0, kind := .gBlock } [
      .leaf { uid := 2, parent := some 1, kind := .stateLabel "s0" },
      .leaf { uid := 3, parent := some 1, kind := .gotoNode (some "s0") }],
    .leaf { uid := 4, parent := some 0, kind := .taskletNode [] [] }]

/-- The label of the `GBlock` moves up to the root, which becomes its parent. -/
example : flattenBlocks.visit blockTree = .node (.scope { uid := 0, kind := .scheduleTreeScope } [
    .leaf { uid := 2, parent := some 0, kind := .stateLabel "s0" },
    .leaf { uid := 4, parent := some 0, kind := .taskletNode [] [] }]) := rfl

/-- `blockTree` has consistent parent links, and the transformer with no methods gives it
    back unchanged. -/
theorem transformer_without_methods_keeps_tree_blockTree :
    blockTree.consistent = true ∧ ({} : Transformer).visit blockTree = .node blockTree ∧
      ({} : Transformer).genericVisit blockTree = blockTree :=
  ⟨rfl, transformer_without_methods_keeps_tree blockTree rfl⟩

/-- Visiting the children of `blockTree` as a list keeps the `GBlock`'s returned list as one
    element, where `generic_visit` splices the label in. -/
theorem visitList_flattenBlocks :
    flattenBlocks.visitList blockTree.children =
        [.many [.leaf { uid := 2, parent := some 1, kind := .stateLabel "s0" }],
          .node (.leaf { uid := 4, parent := some 0, kind := .taskletNode [] [] })] ∧
      flattenBlocks.visitChildren blockTree.children =
        [.leaf { uid := 2, parent := some 1, kind := .stateLabel "s0" },
          .leaf { uid := 4, parent := some 0, kind := .taskletNode [] [] }] ∧
      flattenBlocks.visitList blockTree.children ≠
        (flattenBlocks.visitChildren blockTree.children).map .node :=
  ⟨rfl, rfl, fun h => by cases h⟩

end DaceLowering
