/-
  The operators of ECMAScript 5, in the five families that a node may name one of.

  * `Arithmetic`: the operators that stand alone as a binary operator and, followed by
    an equals sign, as an assignment.
  * `OperatorFamily.isLegal`: whether a token is an operator of a family.
-/

namespace ScriptTree

/-- An operator that computes a number or a string from two values. -/
inductive Arithmetic where
  | add
  | subtract
  | multiply
  | divide
  | remainder
  | shiftLeft
  /-- The shift to the right that keeps the sign. -/
  | shiftRight
  /-- The shift to the right that fills up with zeros. -/
  | shiftRightZero
  | or
  | xor
  | and
  deriving DecidableEq, Repr

namespace Arithmetic

/-- How the operator is written. -/
def token : Arithmetic → String
  | .add => "+"
  | .subtract => "-"
  | .multiply => "*"
  | .divide => "/"
  | .remainder => "%"
  | .shiftLeft => "<<"
  | .shiftRight => ">>"
  | .shiftRightZero => ">>>"
  | .or => "|"
  | .xor => "^"
  | .and => "&"

/-- Every operator that computes. -/
def all : List Arithmetic :=
  [.add, .subtract, .multiply, .divide, .remainder, .shiftLeft, .shiftRight, .shiftRightZero,
   .or, .xor, .and]

end Arithmetic

/-- An operator that compares two values. -/
inductive Comparison where
  | equal
  | notEqual
  /-- Equal and of one type. -/
  | same
  | notSame
  | less
  | lessOrEqual
  | greater
  | greaterOrEqual
  deriving DecidableEq, Repr

namespace Comparison

/-- How the operator is written. -/
def token : Comparison → String
  | .equal => "=="
  | .notEqual => "!="
  | .same => "==="
  | .notSame => "!=="
  | .less => "<"
  | .lessOrEqual => "<="
  | .greater => ">"
  | .greaterOrEqual => ">="

/-- Every operator that compares. -/
def all : List Comparison :=
  [.equal, .notEqual, .same, .notSame, .less, .lessOrEqual, .greater, .greaterOrEqual]

end Comparison

/-- An operator between two values that are both evaluated. -/
inductive BinaryOperator where
  | compare (op : Comparison)
  | arithmetic (op : Arithmetic)
  | in
  | instanceOf
  deriving DecidableEq, Repr

namespace BinaryOperator

/-- How the operator is written. -/
def token : BinaryOperator → String
  | .compare op => op.token
  | .arithmetic op => op.token
  | .in => "in"
  | .instanceOf => "instanceof"

/-- Every operator of the family. -/
def all : List BinaryOperator :=
  Comparison.all.map .compare ++ Arithmetic.all.map .arithmetic ++ [.in, .instanceOf]

/-- The operator that is written as a string, if there is one. -/
def ofToken? (s : String) : Option BinaryOperator := all.find? (·.token == s)

end BinaryOperator

/-- An operator that stores a value. -/
inductive AssignmentOperator where
  | plain
  /-- Computes the value from the one that was stored before. -/
  | compound (op : Arithmetic)
  deriving DecidableEq, Repr

namespace AssignmentOperator

/-- How the operator is written. -/
def token : AssignmentOperator → String
  | .plain => "="
  | .compound op => op.token ++ "="

/-- Every operator of the family. -/
def all : List AssignmentOperator := .plain :: Arithmetic.all.map .compound

/-- The operator that is written as a string, if there is one. -/
def ofToken? (s : String) : Option AssignmentOperator := all.find? (·.token == s)

end AssignmentOperator

/-- An operator that evaluates its second value only if the first one asks for it. -/
inductive LogicalOperator where
  | or
  | and
  deriving DecidableEq, Repr

namespace LogicalOperator

/-- How the operator is written. -/
def token : LogicalOperator → String
  | .or => "||"
  | .and => "&&"

/-- Every operator of the family. -/
def all : List LogicalOperator := [.or, .and]

/-- The operator that is written as a string, if there is one. -/
def ofToken? (s : String) : Option LogicalOperator := all.find? (·.token == s)

end LogicalOperator

/-- An operator before its only value. -/
inductive UnaryOperator where
  | minus
  | plus
  | logicalNot
  | bitwiseNot
  | typeOf
  | void
  | delete
  deriving DecidableEq, Repr

namespace UnaryOperator

/-- How the operator is written. -/
def token : UnaryOperator → String
  | .minus => "-"
  | .plus => "+"
  | .logicalNot => "!"
  | .bitwiseNot => "~"
  | .typeOf => "typeof"
  | .void => "void"
  | .delete => "delete"

/-- Every operator of the family. -/
def all : List UnaryOperator :=
  [.minus, .plus, .logicalNot, .bitwiseNot, .typeOf, .void, .delete]

/-- The operator that is written as a string, if there is one. -/
def ofToken? (s : String) : Option UnaryOperator := all.find? (·.token == s)

end UnaryOperator

/-- An operator that adds or takes one in place. -/
inductive UpdateOperator where
  | increment
  | decrement
  deriving DecidableEq, Repr

namespace UpdateOperator

/-- How the operator is written. -/
def token : UpdateOperator → String
  | .increment => "++"
  | .decrement => "--"

/-- Every operator of the family. -/
def all : List UpdateOperator := [.increment, .decrement]

/-- The operator that is written as a string, if there is one. -/
def ofToken? (s : String) : Option UpdateOperator := all.find? (·.token == s)

end UpdateOperator

/-- A family of operators. -/
inductive OperatorFamily where
  | assignment
  | binary
  | logical
  | unary
  | update
  deriving DecidableEq, Repr, Inhabited

namespace OperatorFamily

/-- How a message names a family. -/
def name : OperatorFamily → String
  | .assignment => "assignment"
  | .binary => "binary"
  | .logical => "logical"
  | .unary => "unary"
  | .update => "update"

/-- Whether a token is an operator of a family. -/
def isLegal : OperatorFamily → String → Bool
  | .assignment, s => (AssignmentOperator.ofToken? s).isSome
  | .binary, s => (BinaryOperator.ofToken? s).isSome
  | .logical, s => (LogicalOperator.ofToken? s).isSome
  | .unary, s => (UnaryOperator.ofToken? s).isSome
  | .update, s => (UpdateOperator.ofToken? s).isSome

end OperatorFamily

end ScriptTree
