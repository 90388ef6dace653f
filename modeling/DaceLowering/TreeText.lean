import DaceLowering.ScheduleTree

/-!
# Schedule trees as text

`ScheduleTreeNode.as_string(indent)` prints a schedule tree as indented pseudo-code.  A leaf
prints one line at `indent * INDENTATION`.  A scope prints its header, then its children at
`indent + 1` (`pass` when it has none), then a footer for some loop variants.  The plain
scopes (`ScheduleTreeScope`, `ControlFlowScope`, `DataflowScope`) print only their children.
`StateIfScope` skips `IfScope.as_string` and calls the plain scope's method directly.  The
dispatch is on the node's class, as in Python, so a node whose class is not a scope is
printed and traversed without children.

The text is the list of its lines joined by newlines, where a line may itself hold newlines
of a code block (`TreeNode.asString_eq_intercalate`).  The headers of the nodes are among
those lines in the order of `preorder_traversal`.  Each sits at exactly `k + d` copies of
`INDENTATION` when the tree is printed at `k` and the node is at depth `d`
(`asString_headers_in_preorder`).
-/

namespace DaceLowering

/-! ### Joining lines -/

theorem intercalate_go_append (s x y : String) (L : List String) :
    String.intercalate.go (x ++ y) s L = x ++ String.intercalate.go y s L := by
  induction L generalizing y with
  | nil => rfl
  | cons a L ih =>
    simp only [String.intercalate.go, String.append_assoc]
    exact ih _

@[simp] theorem intercalate_singleton (s a : String) : s.intercalate [a] = a := rfl

theorem intercalate_cons_cons (s a b : String) (L : List String) :
    s.intercalate (a :: b :: L) = a ++ s ++ s.intercalate (b :: L) := by
  simpa [String.intercalate, String.intercalate.go] using intercalate_go_append s (a ++ s) b L

theorem intercalate_cons_of_ne_nil (s a : String) {L : List String} (hL : L ≠ []) :
    s.intercalate (a :: L) = a ++ s ++ s.intercalate L := by
  obtain ⟨b, L, rfl⟩ := List.exists_cons_of_ne_nil hL
  exact intercalate_cons_cons s a b L

/-- Joining two non-empty lists of lines puts one separator between them. -/
theorem intercalate_append (s : String) {L M : List String} (hL : L ≠ []) (hM : M ≠ []) :
    s.intercalate (L ++ M) = s.intercalate L ++ s ++ s.intercalate M := by
  induction L with
  | nil => exact absurd rfl hL
  | cons a L ih =>
    cases L with
    | nil => exact intercalate_cons_of_ne_nil s a hM
    | cons b L =>
      rw [List.cons_append, intercalate_cons_of_ne_nil s a (by simp), ih (List.cons_ne_nil _ _),
        intercalate_cons_cons]
      simp only [String.append_assoc]

/-! ### `as_string` of one node -/

/-- `INDENTATION` -/
def indentation : String := "  "

/-- `indent * INDENTATION` -/
def indentBy (indent : Nat) : String := String.join (List.replicate indent indentation)

/-- The classes that derive from `ScheduleTreeScope`. -/
def NodeClass.isScope : NodeClass → Bool
  | .scheduleTreeScope | .controlFlowScope | .dataflowScope | .gBlock | .loopScope _ | .ifScope _ | .stateIfScope _ | .elifScope _
  | .elseScope | .mapScope _ _ | .consumeScope _ _ _ | .pipelineScope _ _ => true
  | _ => false

/-- The result of `LoopScope._check_loop_variant`. -/
inductive LoopVariant where
  | forLoop
  | whileLoop
  | doWhile
  | doForUncondIncrement
  | doFor
  deriving DecidableEq, Repr

/-- `LoopScope._check_loop_variant`: a code block is true, a loop variable when it is not
    empty. -/
def LoopRegionInfo.checkLoopVariant (loop : LoopRegionInfo) : LoopVariant :=
  if loop.updateStatement.isSome && loop.initStatement.isSome && !loop.loopVariable.isEmpty then
    if loop.inverted then
      if loop.updateBeforeCondition then .doForUncondIncrement else .doFor
    else .forLoop
  else if loop.inverted then .doWhile else .whileLoop

/-- `LoopScope.as_string(indent)` with `body` the text of `super().as_string(indent)`.  The
    variants that print `init_statement` and `update_statement` have both. -/
def LoopRegionInfo.asString (loop : LoopRegionInfo) (indent : Nat) (body : String) : String :=
  let init := loop.initStatement.getD ""
  let update := loop.updateStatement.getD ""
  match loop.checkLoopVariant with
  | .doForUncondIncrement =>
    let preHeader := indentBy indent ++ init ++ "\n"
    let header := indentBy indent ++ "do:\n"
    let preFooter := indentBy (indent + 1) ++ update ++ "\n"
    let footer := indentBy indent ++ "while " ++ loop.loopCondition
    preHeader ++ header ++ body ++ "\n" ++ preFooter ++ footer
  | .doFor =>
    let preHeader := indentBy indent ++ init ++ "\n"
    let header := indentBy indent ++ "while True:\n"
    let preFooter := indentBy (indent + 1) ++ "if (not " ++ loop.loopCondition ++ "):\n" ++
      (indentBy (indent + 2) ++ "break\n")
    let footer := indentBy (indent + 1) ++ update ++ "\n"
    preHeader ++ header ++ body ++ "\n" ++ preFooter ++ footer
  | .forLoop =>
    indentBy indent ++ "for " ++ init ++ "; " ++ loop.loopCondition ++ "; " ++ update ++ ":\n" ++
      body
  | .whileLoop => indentBy indent ++ "while " ++ loop.loopCondition ++ ":\n" ++ body
  | .doWhile =>
    let header := indentBy indent ++ "do:\n"
    let footer := indentBy indent ++ "while " ++ loop.loopCondition
    header ++ body ++ "\n" ++ footer

/-- `node.as_string(indent)` of a node of class `kind`, with `body` the text of
    `ScheduleTreeScope.as_string(node, indent)`, which only the scopes print. -/
def NodeClass.asString (kind : NodeClass) (indent : Nat) (body : String) : String :=
  match kind with
  | .scheduleTreeNode => indentBy indent ++ "UNSUPPORTED"
  | .scheduleTreeScope | .controlFlowScope | .dataflowScope => body
  | .gBlock => indentBy indent ++ "gblock:\n" ++ body
  | .stateLabel name => indentBy indent ++ "label " ++ name ++ ":"
  | .gotoNode target =>
    let name := match target with
      | some t => if t.isEmpty then "exit" else t
      | none => "exit"
    indentBy indent ++ "goto " ++ name
  | .assignNode name value => indentBy indent ++ "assign " ++ name ++ " = " ++ value
  | .loopScope loop => loop.asString indent body
  | .ifScope condition => indentBy indent ++ "if " ++ condition ++ ":\n" ++ body
  | .stateIfScope condition => indentBy indent ++ "stateif " ++ condition ++ ":\n" ++ body
  | .breakNode => indentBy indent ++ "break"
  | .continueNode => indentBy indent ++ "continue"
  | .elifScope condition => indentBy indent ++ "elif " ++ condition ++ ":\n" ++ body
  | .elseScope => indentBy indent ++ "else:\n" ++ body
  | .mapScope params ranges =>
    indentBy indent ++ "map " ++ ", ".intercalate params ++ " in [" ++ ", ".intercalate ranges ++
      "]:\n" ++ body
  | .consumeScope peIndex numPes condition =>
    let cond := condition.getD "stream not empty"
    indentBy indent ++ "consume (PE " ++ peIndex ++ " out of " ++ numPes ++ ") while " ++ cond ++
      ":\n" ++ body
  | .pipelineScope params ranges =>
    indentBy indent ++ "pipeline " ++ ", ".intercalate params ++ " in [" ++
      ", ".intercalate ranges ++ "]:\n" ++ body
  | .taskletNode inMemlets outMemlets =>
    let ins := ", ".intercalate inMemlets
    let outs := ", ".intercalate outMemlets
    if outs.isEmpty then indentBy indent ++ "tasklet(" ++ ins ++ ")"
    else indentBy indent ++ outs ++ " = tasklet(" ++ ins ++ ")"
  | .libraryCall inMemlets outMemlets libname ownProperties =>
    let ownProps := ", ".intercalate (ownProperties.map fun p => p.1 ++ "=" ++ p.2)
    indentBy indent ++ ", ".intercalate outMemlets ++ " = library " ++ libname ++ "[" ++
      ownProps ++ "](" ++ ", ".intercalate inMemlets ++ ")"
  | .copyNode target data subset otherSubset otherSubsetAtOrigin wcr =>
    let offset := match otherSubset with
      | some o => if otherSubsetAtOrigin then "" else "[" ++ o ++ "]"
      | none => ""
    let wcr := match wcr with
      | some w => " with " ++ w
      | none => ""
    indentBy indent ++ target ++ offset ++ " = copy " ++ data ++ "[" ++ subset ++ "]" ++ wcr
  | .dynScopeCopyNode target data subset =>
    indentBy indent ++ target ++ " = dscopy " ++ data ++ "[" ++ subset ++ "]"
  | .viewNode target memlet shape => indentBy indent ++ target ++ " = view " ++ memlet ++ " as " ++ shape
  | .nView target memlet shape => indentBy indent ++ target ++ " = nview " ++ memlet ++ " as " ++ shape
  | .refSetNode target memlet srcCodeNode =>
    match srcCodeNode with
    | some cls => indentBy indent ++ target ++ " = refset from " ++ cls.toLower
    | none => indentBy indent ++ target ++ " = refset to " ++ memlet

/-! ### `as_string` and `preorder_traversal` of a tree -/

/-- `ScheduleTreeScope.as_string(indent)`, given `child.as_string(indent + 1)` for each
    child. -/
def scopeAsString (indent : Nat) (children : List String) : String :=
  if children.isEmpty then indentBy (indent + 1) ++ "pass" else "\n".intercalate children

/-- A scope without children prints `pass`, one line. -/
theorem scopeAsString_nil (indent : Nat) :
    scopeAsString indent [] = "\n".intercalate [indentBy (indent + 1) ++ "pass"] := rfl

mutual
/-- `node.as_string(indent)` -/
def TreeNode.asString : TreeNode → Nat → String
  | .leaf i, indent => i.kind.asString indent (scopeAsString indent [])
  | .scope i cs, indent => i.kind.asString indent (scopeAsString indent (childrenAsString cs (indent + 1)))

/-- `[child.as_string(indent) for child in children]` -/
def childrenAsString : List TreeNode → Nat → List String
  | [], _ => []
  | c :: cs, indent => c.asString indent :: childrenAsString cs indent
end

mutual
/-- `list(node.preorder_traversal())` -/
def TreeNode.preorderTraversal : TreeNode → List TreeNode
  | .leaf i => [.leaf i]
  | .scope i cs => .scope i cs :: if i.kind.isScope then preorderChildren cs else []

/-- The traversals of the children, one after another. -/
def preorderChildren : List TreeNode → List TreeNode
  | [] => []
  | c :: cs => c.preorderTraversal ++ preorderChildren cs
end

mutual
/-- `preorder_traversal()` of a node at depth `depth`, each node with its depth. -/
def TreeNode.preorderFrom : TreeNode → Nat → List (Nat × TreeNode)
  | .leaf i, depth => [(depth, .leaf i)]
  | .scope i cs, depth =>
    (depth, .scope i cs) :: if i.kind.isScope then preorderChildrenFrom cs (depth + 1) else []

/-- The traversals of the children at depth `depth`, one after another. -/
def preorderChildrenFrom : List TreeNode → Nat → List (Nat × TreeNode)
  | [], _ => []
  | c :: cs, depth => c.preorderFrom depth ++ preorderChildrenFrom cs depth
end

mutual
theorem TreeNode.preorderFrom_map_snd : ∀ (t : TreeNode) (depth : Nat),
    (t.preorderFrom depth).map Prod.snd = t.preorderTraversal
  | .leaf _, _ => rfl
  | .scope i cs, depth => by
    rw [TreeNode.preorderFrom, TreeNode.preorderTraversal, List.map_cons]
    split
    · rw [preorderChildrenFrom_map_snd cs (depth + 1)]
    · rfl

theorem preorderChildrenFrom_map_snd : ∀ (cs : List TreeNode) (depth : Nat),
    (preorderChildrenFrom cs depth).map Prod.snd = preorderChildren cs
  | [], _ => rfl
  | c :: cs, depth => by
    rw [preorderChildrenFrom, preorderChildren, List.map_append, c.preorderFrom_map_snd depth,
      preorderChildrenFrom_map_snd cs depth]
end

/-! ### The lines of the text -/

/-- The lines a node of class `kind` prints before its children, without their
    indentation: the one line of a leaf, the header of a scope. -/
def NodeClass.header : NodeClass → List String
  | .scheduleTreeNode => ["UNSUPPORTED"]
  | .scheduleTreeScope | .controlFlowScope | .dataflowScope => []
  | .gBlock => ["gblock:"]
  | .stateLabel name => ["label " ++ name ++ ":"]
  | .gotoNode target =>
    [match target with
      | some t => if t.isEmpty then "goto exit" else "goto " ++ t
      | none => "goto exit"]
  | .assignNode name value => ["assign " ++ name ++ " = " ++ value]
  | .loopScope loop =>
    let init := loop.initStatement.getD ""
    let update := loop.updateStatement.getD ""
    match loop.checkLoopVariant with
    | .doForUncondIncrement => [init, "do:"]
    | .doFor => [init, "while True:"]
    | .forLoop => ["for " ++ init ++ "; " ++ loop.loopCondition ++ "; " ++ update ++ ":"]
    | .whileLoop => ["while " ++ loop.loopCondition ++ ":"]
    | .doWhile => ["do:"]
  | .ifScope condition => ["if " ++ condition ++ ":"]
  | .stateIfScope condition => ["stateif " ++ condition ++ ":"]
  | .breakNode => ["break"]
  | .continueNode => ["continue"]
  | .elifScope condition => ["elif " ++ condition ++ ":"]
  | .elseScope => ["else:"]
  | .mapScope params ranges =>
    ["map " ++ ", ".intercalate params ++ " in [" ++ ", ".intercalate ranges ++ "]:"]
  | .consumeScope peIndex numPes condition =>
    ["consume (PE " ++ peIndex ++ " out of " ++ numPes ++ ") while " ++
      condition.getD "stream not empty" ++ ":"]
  | .pipelineScope params ranges =>
    ["pipeline " ++ ", ".intercalate params ++ " in [" ++ ", ".intercalate ranges ++ "]:"]
  | .taskletNode inMemlets outMemlets =>
    [if (", ".intercalate outMemlets).isEmpty then "tasklet(" ++ ", ".intercalate inMemlets ++ ")"
      else ", ".intercalate outMemlets ++ " = tasklet(" ++ ", ".intercalate inMemlets ++ ")"]
  | .libraryCall inMemlets outMemlets libname ownProperties =>
    [", ".intercalate outMemlets ++ " = library " ++ libname ++ "[" ++
      ", ".intercalate (ownProperties.map fun p => p.1 ++ "=" ++ p.2) ++ "](" ++
      ", ".intercalate inMemlets ++ ")"]
  | .copyNode target data subset otherSubset otherSubsetAtOrigin wcr =>
    [target ++ (match otherSubset with
        | some o => if otherSubsetAtOrigin then "" else "[" ++ o ++ "]"
        | none => "") ++
      " = copy " ++ data ++ "[" ++ subset ++ "]" ++ (wcr.map (" with " ++ ·)).getD ""]
  | .dynScopeCopyNode target data subset => [target ++ " = dscopy " ++ data ++ "[" ++ subset ++ "]"]
  | .viewNode target memlet shape => [target ++ " = view " ++ memlet ++ " as " ++ shape]
  | .nView target memlet shape => [target ++ " = nview " ++ memlet ++ " as " ++ shape]
  | .refSetNode target memlet srcCodeNode =>
    [match srcCodeNode with
      | some cls => target ++ " = refset from " ++ cls.toLower
      | none => target ++ " = refset to " ++ memlet]

/-- The lines a scope of class `kind` prints after its children, with their indentation; a
    line ends the text of a `do-for` loop, which ends with a newline. -/
def NodeClass.footer (kind : NodeClass) (indent : Nat) : List String :=
  match kind with
  | .loopScope loop =>
    match loop.checkLoopVariant with
    | .doForUncondIncrement =>
      [indentBy (indent + 1) ++ loop.updateStatement.getD "",
        indentBy indent ++ "while " ++ loop.loopCondition]
    | .doFor =>
      [indentBy (indent + 1) ++ "if (not " ++ loop.loopCondition ++ "):",
        indentBy (indent + 2) ++ "break", indentBy (indent + 1) ++ loop.updateStatement.getD "", ""]
    | .doWhile => [indentBy indent ++ "while " ++ loop.loopCondition]
    | .forLoop | .whileLoop => []
  | _ => []

/-- The lines of a node of class `kind` at `indent` whose children print the lines `body`:
    its header at `indent`, then, for a scope, the children and the footer. -/
def NodeClass.lines (kind : NodeClass) (indent : Nat) (body : List String) : List String :=
  kind.header.map (indentBy indent ++ ·) ++ if kind.isScope then body ++ kind.footer indent else []

mutual
/-- The lines of `node.as_string(indent)`. -/
def TreeNode.lines : TreeNode → Nat → List String
  | .leaf i, indent => i.kind.lines indent [indentBy (indent + 1) ++ "pass"]
  | .scope i [], indent => i.kind.lines indent [indentBy (indent + 1) ++ "pass"]
  | .scope i (c :: cs), indent => i.kind.lines indent (childrenLines (c :: cs) (indent + 1))

/-- The lines of the children, one child after another. -/
def childrenLines : List TreeNode → Nat → List String
  | [], _ => []
  | c :: cs, indent => c.lines indent ++ childrenLines cs indent
end

/-- Each node's own text is its lines joined: the header and footer lines around the lines
    of the children. -/
theorem NodeClass.asString_eq_intercalate (kind : NodeClass) (indent : Nat) {body : List String}
    (hbody : body ≠ []) :
    kind.asString indent ("\n".intercalate body) = "\n".intercalate (kind.lines indent body) := by
  -- the header lines, the body and the footer lines, joined with one newline between each
  cases kind with
  | loopScope loop =>
    simp only [NodeClass.asString, LoopRegionInfo.asString, NodeClass.lines, NodeClass.header,
      NodeClass.footer, NodeClass.isScope]
    cases loop.checkLoopVariant <;>
      simp [intercalate_cons_of_ne_nil, intercalate_append, hbody, String.append_assoc]
  | _ =>
    simp only [NodeClass.asString, NodeClass.lines, NodeClass.header, NodeClass.footer,
      NodeClass.isScope]
    repeat' split
    all_goals simp_all [intercalate_cons_of_ne_nil, String.append_assoc]

theorem NodeClass.lines_ne_nil (kind : NodeClass) (indent : Nat) {body : List String}
    (hbody : body ≠ []) : kind.lines indent body ≠ [] := by
  cases kind <;> simp [NodeClass.lines, NodeClass.header, NodeClass.isScope, hbody]

mutual
theorem TreeNode.lines_ne_nil : ∀ (t : TreeNode) (indent : Nat), t.lines indent ≠ []
  | .leaf i, indent => i.kind.lines_ne_nil indent (List.cons_ne_nil _ _)
  | .scope i [], indent => i.kind.lines_ne_nil indent (List.cons_ne_nil _ _)
  | .scope i (c :: cs), indent =>
    i.kind.lines_ne_nil indent (childrenLines_ne_nil (c :: cs) (indent + 1) (List.cons_ne_nil _ _))

theorem childrenLines_ne_nil : ∀ (cs : List TreeNode) (indent : Nat), cs ≠ [] →
    childrenLines cs indent ≠ []
  | [], _, h => absurd rfl h
  | c :: _, indent, _ => by
    simp only [childrenLines, ne_eq, List.append_eq_nil, not_and]
    exact fun h => absurd h (c.lines_ne_nil indent)
end

mutual
/-- The text of a tree is its lines joined by newlines. -/
theorem TreeNode.asString_eq_intercalate : ∀ (t : TreeNode) (indent : Nat),
    t.asString indent = "\n".intercalate (t.lines indent)
  | .leaf i, indent => by
    rw [TreeNode.asString, TreeNode.lines, scopeAsString_nil]
    exact i.kind.asString_eq_intercalate indent (List.cons_ne_nil _ _)
  | .scope i [], indent => by
    rw [TreeNode.asString, TreeNode.lines, childrenAsString, scopeAsString_nil]
    exact i.kind.asString_eq_intercalate indent (List.cons_ne_nil _ _)
  | .scope i (c :: cs), indent => by
    have hne : (childrenAsString (c :: cs) (indent + 1)).isEmpty = false := rfl
    rw [TreeNode.asString, TreeNode.lines, scopeAsString, hne, if_neg Bool.false_ne_true,
      childrenAsString_eq_intercalate (c :: cs) (indent + 1) (List.cons_ne_nil _ _)]
    exact i.kind.asString_eq_intercalate indent
      (childrenLines_ne_nil (c :: cs) (indent + 1) (List.cons_ne_nil _ _))

theorem childrenAsString_eq_intercalate : ∀ (cs : List TreeNode) (indent : Nat), cs ≠ [] →
    "\n".intercalate (childrenAsString cs indent) = "\n".intercalate (childrenLines cs indent)
  | [], _, h => absurd rfl h
  | [c], indent, _ => by
    simp [childrenAsString, childrenLines, c.asString_eq_intercalate indent]
  | c :: d :: ds, indent, _ =>
    calc "\n".intercalate (childrenAsString (c :: d :: ds) indent)
        = c.asString indent ++ "\n" ++ "\n".intercalate (childrenAsString (d :: ds) indent) :=
          intercalate_cons_of_ne_nil "\n" _ (by simp [childrenAsString])
      _ = "\n".intercalate (c.lines indent ++ childrenLines (d :: ds) indent) := by
          rw [childrenAsString_eq_intercalate (d :: ds) indent (List.cons_ne_nil _ _),
            c.asString_eq_intercalate indent, intercalate_append "\n" (c.lines_ne_nil indent)
              (childrenLines_ne_nil (d :: ds) indent (List.cons_ne_nil _ _))]
end

/-- The header lines of the nodes listed, each at `k` plus its depth. -/
def headerLines (k : Nat) (nodes : List (Nat × TreeNode)) : List String :=
  nodes.flatMap fun p => p.2.info.kind.header.map (indentBy (k + p.1) ++ ·)

mutual
theorem TreeNode.headerLines_sublist : ∀ (t : TreeNode) (k d : Nat),
    (headerLines k (t.preorderFrom d)).Sublist (t.lines (k + d))
  | .leaf i, k, d => by
    simp [headerLines, TreeNode.preorderFrom, TreeNode.lines, NodeClass.lines, TreeNode.info]
  | .scope i [], k, d => by
    simp [headerLines, TreeNode.preorderFrom, preorderChildrenFrom, TreeNode.lines,
      NodeClass.lines, TreeNode.info]
  | .scope i (c :: cs), k, d => by
    have ih := childrenHeaderLines_sublist (c :: cs) k (d + 1)
    simp only [headerLines, TreeNode.preorderFrom, TreeNode.lines, NodeClass.lines, TreeNode.info,
      List.flatMap_cons] at ih ⊢
    split
    · exact (List.Sublist.refl _).append (ih.trans (List.sublist_append_left _ _))
    · simp

theorem childrenHeaderLines_sublist : ∀ (cs : List TreeNode) (k d : Nat),
    (headerLines k (preorderChildrenFrom cs d)).Sublist (childrenLines cs (k + d))
  | [], _, _ => List.nil_sublist _
  | c :: cs, k, d => by
    rw [preorderChildrenFrom, headerLines, List.flatMap_append, childrenLines]
    exact (c.headerLines_sublist k d).append (childrenHeaderLines_sublist cs k d)
end

/-- For every schedule tree `t` and indentation `k`, `t.as_string(k)` is the lines
    `t.lines k` joined by newlines, so each line starts the text or follows a newline.  The
    header lines of the nodes of `t`, in the order of `t.preorder_traversal()`, are among
    those lines.  The header of a node at depth `d` stands after exactly `k + d` copies of
    `INDENTATION`. -/
theorem asString_headers_in_preorder (t : TreeNode) (k : Nat) :
    (t.preorderFrom 0).map Prod.snd = t.preorderTraversal ∧
      t.asString k = "\n".intercalate (t.lines k) ∧
      (headerLines k (t.preorderFrom 0)).Sublist (t.lines k) :=
  ⟨t.preorderFrom_map_snd 0, t.asString_eq_intercalate k, t.headerLines_sublist k 0⟩

/- A `StateIfScope` prints its own header and not the one of `IfScope`. -/
example :
    (TreeNode.scope { uid := 0, kind := .scheduleTreeScope } [
      .scope { uid := 1, parent := some 0, kind := .stateIfScope "c" } [
        .leaf { uid := 2, parent := some 1, kind := .breakNode }]]).asString 0 =
      "  stateif c:\n    break" := by
  decide

end DaceLowering
