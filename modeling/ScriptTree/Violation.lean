/-
  What can be wrong with a tree, and how a message says it.

  * `Field`, `Endpoint`: the parts of a node that a message points at.
  * `Fault`: one cause per constructor; `Fault.message` holds every wording.
  * `Violation`: a fault at the occurrence that it is charged to.
-/
import ScriptTree.Occurrence
import ScriptTree.Operator

namespace ScriptTree

/-- A field of a node, or one element of a field that is a list. -/
structure Field where
  name : String
  index : Option Nat
  deriving DecidableEq, Repr

namespace Field

/-- A field as a whole. -/
def named (name : String) : Field := ⟨name, none⟩

/-- One element of a field. -/
def element (name : String) (index : Nat) : Field := ⟨name, some index⟩

/-- How a message names a field. -/
def display (f : Field) : String :=
  match f.index with
  | none => "`" ++ f.name ++ "`"
  | some index => "`" ++ f.name ++ "[" ++ index.repr ++ "]`"

end Field

/-- One of the two positions of a source location. -/
inductive Endpoint where
  | start
  | stop
  deriving DecidableEq, Repr

/-- The field that holds a position. -/
def Endpoint.name : Endpoint → String
  | .start => "start"
  | .stop => "end"

/-- A reason why a tree is no valid program or expression. -/
inductive Fault where
  /-- A value that is no object stands where a node must. -/
  | notNode (found : String)
  /-- A node has no string as its type. -/
  | missingType
  /-- The type of a node is none of the known ones. -/
  | unknownType (name : String)
  /-- A source location lacks a position. -/
  | missingEndpoint (endpoint : Endpoint)
  /-- The line of a position is no number from one on. -/
  | invalidLine (endpoint : Endpoint)
  /-- The column of a position is no number from zero on. -/
  | invalidColumn (endpoint : Endpoint)
  | missing (field : Field)
  | notArray (field : Field)
  | notString (field : Field)
  /-- A node of one kind stands where another is asked for. -/
  | misplaced (field : Field) (expected : Category) (found : Kind)
  /-- The operator of a node is missing, or none of its family. -/
  | invalidOperator (family : OperatorFamily) (found : Option String)
  | invalidPrefixFlag
  | invalidName (name : String)
  | reservedWord (word : String)
  /-- The name behind the dot of a member is no name. -/
  | invalidMemberName
  | missingLiteralValue
  | invalidLiteralValue (found : String)
  | nanLiteral
  | negativeLiteral
  /-- An object literal lists something that is no object. -/
  | notProperty (field : Field)
  | invalidPropertyKind
  | invalidPropertyKey
  /-- A getter is no function expression without parameters. -/
  | getterParameters
  /-- A setter is no function expression with one parameter. -/
  | setterParameters
  /-- A property cannot stand beside an earlier one of its name. -/
  | conflictingProperty (key : String)
  | breakOutside
  | continueOutside
  | returnOutside
  | unknownLabel (name : String)
  | duplicateLabel (name : String)
  /-- The `else` of a statement would be read as part of the statement before it. -/
  | danglingElse
  /-- A switch has more than one default case. -/
  | repeatedDefault
  /-- A try statement has neither a catch clause nor a finalizer. -/
  | bareTry
  | shortSequence
  | emptyDeclaration
  | invalidDeclarationKind
  /-- A with statement stands in strict code. -/
  | strictWith
  /-- Strict code deletes a variable. -/
  | strictDelete
  /-- A function in strict code has two parameters of one name. -/
  | duplicateParameter (name : String)
  /-- Strict code binds or assigns a restricted name. -/
  | restrictedName (name : String)
  /-- Strict code gives one data property twice. -/
  | duplicateProperty (key : String)
  deriving DecidableEq, Repr

namespace Fault

/-- A text in double quotes, as it stands. -/
def quoted (s : String) : String := "\"" ++ s ++ "\""

/-- The wording of a fault. -/
def message : Fault → String
  | notNode found => "Expected a node, found " ++ found
  | missingType => "Node must have a string `type`"
  | unknownType name => "Unknown node type " ++ quoted name
  | missingEndpoint endpoint => "`loc." ++ endpoint.name ++ "` must be present"
  | invalidLine endpoint =>
    "`loc." ++ endpoint.name ++ ".line` must be a number no less than 1"
  | invalidColumn endpoint =>
    "`loc." ++ endpoint.name ++ ".column` must be a non-negative number"
  | missing field =>
    field.display ++ if field.index.isNone then " is required" else " must not be null"
  | notArray field => field.display ++ " must be an array"
  | notString field => field.display ++ " must be a string"
  | misplaced field expected found =>
    field.display ++ " must be " ++ expected.phrase ++ ", found " ++ found.name
  | invalidOperator family none => "Missing " ++ family.name ++ " operator"
  | invalidOperator family (some found) => "Invalid " ++ family.name ++ " operator " ++ found
  | invalidPrefixFlag => "`prefix` must be a boolean"
  | invalidName name => quoted name ++ " is not a valid identifier name"
  | reservedWord word => "Identifier " ++ quoted word ++ " is a reserved word"
  | invalidMemberName => "Non-computed `property` must be an Identifier with a valid name"
  | missingLiteralValue => "Literal must have a `value`"
  | invalidLiteralValue found => "Literal value cannot be " ++ found
  | nanLiteral => "Numeric literal cannot be NaN"
  | negativeLiteral => "Numeric literal cannot be negative"
  | notProperty field => field.display ++ " must be a property"
  | invalidPropertyKind => "Property `kind` must be \"init\", \"get\" or \"set\""
  | invalidPropertyKey =>
    "Property `key` must be an Identifier or a string or numeric Literal"
  | getterParameters => "Getter must be a function expression with no parameters"
  | setterParameters => "Setter must be a function expression with exactly one parameter"
  | conflictingProperty key =>
    "Property " ++ quoted key ++ " conflicts with an earlier property"
  | breakOutside => "Break must be inside loop or switch"
  | continueOutside => "Continue must be inside loop"
  | returnOutside => "Return must be inside function"
  | unknownLabel name => "Label " ++ quoted name ++ " not found"
  | duplicateLabel name => "Duplicate label " ++ quoted name
  | danglingElse => "`consequent` would capture the `else` of this if statement"
  | repeatedDefault => "Switch can only have a single default case"
  | bareTry => "Try statement must have a catch clause or a finalizer"
  | shortSequence => "Sequence expression must have at least two expressions"
  | emptyDeclaration => "Variable declaration must have at least one declarator"
  | invalidDeclarationKind =>
    "Variable declaration `kind` must be \"var\", \"let\" or \"const\""
  | strictWith => "Strict mode code may not contain 'with' statements"
  | strictDelete => "Cannot delete variables in strict mode code"
  | duplicateParameter name =>
    "Duplicate parameter " ++ quoted name ++ " not allowed in strict mode functions"
  | restrictedName name => "Cannot bind or assign to '" ++ name ++ "' in strict mode code"
  | duplicateProperty key =>
    "Duplicate data property " ++ quoted key ++ " not allowed in strict mode code"

end Fault

/-- A fault, and the occurrence that it is charged to: the node that owns the failing
    part, or the value itself if it is malformed. -/
structure Violation where
  owner : Occurrence
  fault : Fault

/-- The text of a violation. -/
def Violation.message (v : Violation) : String :=
  v.owner.value.describe ++ ": " ++ v.fault.message

end ScriptTree
