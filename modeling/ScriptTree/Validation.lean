/-
  Looking for violations in a whole tree.

  Two traversals follow the rules of the nodes.

  * `violations`: every violation, in the order of the traversal
    (`violations_eq`: a malformed value is one violation, a node is its steps in order).
  * `accepts`: whether there is none; it stops at the first one (`accepts_eq`).
  * `Tree.isValid`, `Tree.isValidExpression`, `Tree.violations`: the same from a root.
-/
import ScriptTree.Rule

namespace ScriptTree

/-- The violations at an occurrence and below it, in the order of the traversal. -/
def violations (role : Role) (scope : Scope) (o : Occurrence) : List Violation :=
  match o.value.nodeKind with
  | .error fault => [⟨o, fault⟩]
  | .ok kind =>
    (rule role scope o kind).attach.flatMap fun
      | ⟨.report violation, _⟩ => [violation]
      | ⟨.visit role scope c, _⟩ => violations role scope c
  termination_by sizeOf o.value
  decreasing_by exact within_rule _ ‹_›

/-- Whether an occurrence and all below it follow the rules. -/
def accepts (role : Role) (scope : Scope) (o : Occurrence) : Bool :=
  match o.value.nodeKind with
  | .error _ => false
  | .ok kind =>
    (rule role scope o kind).attach.all fun
      | ⟨.report _, _⟩ => false
      | ⟨.visit role scope c, _⟩ => accepts role scope c
  termination_by sizeOf o.value
  decreasing_by exact within_rule _ ‹_›

/-- The violations of one step. -/
def Step.violations : Step → List Violation
  | .report violation => [violation]
  | .visit role scope c => ScriptTree.violations role scope c

/-- Whether there is no violation in a step. -/
def Step.accepts : Step → Bool
  | .report _ => false
  | .visit role scope c => ScriptTree.accepts role scope c

theorem violations_eq (role : Role) (scope : Scope) (o : Occurrence) :
    violations role scope o =
      match o.value.nodeKind with
      | .error fault => [⟨o, fault⟩]
      | .ok kind => (rule role scope o kind).flatMap Step.violations := by
  rw [violations]
  split
  · rfl
  · next kind _ =>
    conv => rhs; rw [← List.attach_map_subtype_val (rule role scope o kind), List.flatMap_map]
    refine congrArg (List.flatMap · _) (funext fun ⟨step, _⟩ => ?_)
    cases step <;> rfl

theorem accepts_eq (role : Role) (scope : Scope) (o : Occurrence) :
    accepts role scope o =
      match o.value.nodeKind with
      | .error _ => false
      | .ok kind => (rule role scope o kind).all Step.accepts := by
  rw [accepts]
  split
  · rfl
  · next kind _ =>
    conv => rhs; rw [← List.attach_map_subtype_val (rule role scope o kind), List.all_map]
    refine congrArg (List.all _ ·) (funext fun ⟨step, _⟩ => ?_)
    cases step <;> rfl

namespace Tree

/-- The violations of a tree.  Its root may be a node of any kind. -/
def violations (strict : Bool) (t : Tree) : List Violation :=
  ScriptTree.violations .node (.root strict) (.root t)

/-- Whether a tree follows the rules, whatever its root is. -/
def accepted (strict : Bool) (t : Tree) : Bool :=
  accepts .node (.root strict) (.root t)

/-- Whether a tree is a valid program. -/
def isValid (strict : Bool) (t : Tree) : Bool :=
  t.kind? == some .program && t.accepted strict

/-- Whether a tree is a valid expression by itself. -/
def isValidExpression (strict : Bool) (t : Tree) : Bool :=
  t.kind?.any Kind.isExpression && t.accepted strict

end Tree

end ScriptTree
