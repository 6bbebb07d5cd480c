/-
  Statements that would take the `else` written behind them.

  An `else` belongs to the nearest `if` before it that has none.  A statement with an
  `if` like that at its end, printed between an `if` and its `else`, would take the
  `else` for itself.

  * `Tree.capturesElse`: whether a statement does, looked for along the part of each
    statement that is printed last.
-/
import ScriptTree.Tree.Basic

namespace ScriptTree

/-- The statements that end with another statement, their body. -/
def Kind.endsWithBody : Kind → Bool
  | .labeledStatement | .whileStatement | .withStatement | .forStatement
  | .forInStatement => true
  | _ => false

/-- Whether a statement would take an `else` that is written behind it.  An `if` without
    one of its own does so through its consequent, or by itself if the consequent is
    something else than an `if`. -/
def Tree.capturesElse (t : Tree) : Bool :=
  match t.kind? with
  | none => false
  | some kind =>
    if kind = .ifStatement then
      match _h : t.child? "alternate" with
      | some alternate => alternate.capturesElse
      | none =>
        match _h : t.child? "consequent" with
        | some consequent =>
          consequent.kind? ≠ some .ifStatement || consequent.capturesElse
        | none => false
    else if kind.endsWithBody then
      match _h : t.child? "body" with
      | some body => body.capturesElse
      | none => false
    else false
  termination_by t
  decreasing_by all_goals exact sizeOf_lt_of_child? ‹_›

end ScriptTree
