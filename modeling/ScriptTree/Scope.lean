/-
  What a position inherits from the statements and functions around it.

  * `Scope`: the labels in scope, and whether the position lies in a function, in a
    loop, in a switch, and in strict code.
  * `Scope.Move`: the ways into a deeper position; `Scope.enter` is the scope there.
    The body of a function sees no label of its surroundings; the body of a declaration
    leaves loops and switches too, the body of a function expression does not.
-/

namespace ScriptTree

/-- What a position inherits. -/
structure Scope where
  /-- The names of the labels in scope, the innermost first. -/
  labels : List String
  inFunction : Bool
  inIteration : Bool
  inSwitch : Bool
  strict : Bool
  deriving DecidableEq, Repr

namespace Scope

/-- The scope at the root of a tree. -/
def root (strict : Bool) : Scope where
  labels := []
  inFunction := false
  inIteration := false
  inSwitch := false
  strict := strict

/-- A way from a position to a deeper one that changes the scope. -/
inductive Move where
  /-- Into the body of a loop. -/
  | iteration
  /-- Into the statements of a switch. -/
  | switch
  /-- Into the body of a function declaration. -/
  | declarationBody
  /-- Into the body of a function expression. -/
  | expressionBody
  /-- Into strict code. -/
  | strict
  /-- Into a statement with a label. -/
  | label (name : String)
  deriving DecidableEq, Repr

/-- The scope behind a move. -/
def enter (s : Scope) : Move → Scope
  | .iteration => { s with inIteration := true }
  | .switch => { s with inSwitch := true }
  | .declarationBody =>
    { s with labels := [], inFunction := true, inIteration := false, inSwitch := false }
  | .expressionBody => { s with labels := [], inFunction := true }
  | .strict => { s with strict := true }
  | .label name => { s with labels := name :: s.labels }

/-- Whether a label is in scope. -/
def hasLabel (s : Scope) (name : String) : Bool := s.labels.contains name

/-- Whether a break may stand here without a label. -/
def breakable (s : Scope) : Bool := s.inIteration || s.inSwitch

end Scope

end ScriptTree
