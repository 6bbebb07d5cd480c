/-
  The rules of expressions, object literals and functions apart.

  * `Literal.fault?`: what is wrong with the value of a literal.
  * One definition for each kind of node, or for kinds of one shape.
-/
import ScriptTree.Rule.Step

namespace ScriptTree

/-- What is wrong with a number as a literal.  A literal is a token of the source, and no
    token stands for NaN or for a number with a sign, not even for minus zero. -/
def Literal.numberFault? (x : Double) : Option Fault :=
  if x.isNaN then some .nanLiteral
  else if x.negative then some .negativeLiteral
  else none

/-- What is wrong with the value of a literal. -/
def Literal.fault? : Option Tree → Option Fault
  | none => some .missingLiteralValue
  | some (.number x) => numberFault? x
  | some (.array elements) => some (.invalidLiteralValue (Tree.array elements).describe)
  | some (.object fields) => some (.invalidLiteralValue (Tree.object fields).describe)
  | some .null | some (.bool _) | some (.string _) | some (.regExp ..) => none

/-- What is wrong with the name of an identifier. -/
def Identifier.fault? (strict : Bool) : Option Tree → Option Fault
  | none => some (.missing (.named "name"))
  | some (.string name) =>
    if !Name.isName name then some (.invalidName name)
    else if Name.isReserved strict name then some (.reservedWord name)
    else none
  | some _ => some (.notString (.named "name"))

namespace Rule

open Steps

/-- Array literals, which may have holes. -/
def arrayExpression (o : Occurrence) (scope : Scope) : List Step :=
  withList o "elements" (elements o "elements" .expression true scope)

/-- An operator between two expressions. -/
def operation (family : OperatorFamily) (o : Occurrence) (scope : Scope) : List Step :=
  operator o family ++ required o "left" .expression scope ++
    required o "right" .expression scope

/-- An assignment; what stands at its left is bound. -/
def assignmentExpression (o : Occurrence) (scope : Scope) : List Step :=
  operation .assignment o scope ++ binding o scope (o.value.child? "left")

/-- Calls and constructor calls. -/
def callExpression (o : Occurrence) (scope : Scope) : List Step :=
  required o "callee" .expression scope ++ list o "arguments" .expression scope

/-- A choice between two expressions. -/
def conditionalExpression (o : Occurrence) (scope : Scope) : List Step :=
  required o "test" .expression scope ++ required o "consequent" .expression scope ++
    required o "alternate" .expression scope

/-- A name that is used: it is no reserved word. -/
def identifier (o : Occurrence) (scope : Scope) : List Step :=
  (Identifier.fault? scope.strict (o.value.child? "name")).toList.flatMap (fault o)

/-- A value that is written out. -/
def literal (o : Occurrence) : List Step :=
  (Literal.fault? (o.value.get? "value")).toList.flatMap (fault o)

/-- Whether the property of a member is computed, that is, written in brackets. -/
def isComputed (t : Tree) : Bool := (t.get? "computed" >>= Tree.bool?).getD false

/-- The name behind the dot of a member, which is no reference: it may be a reserved
    word, and it is not visited. -/
def memberName (o : Occurrence) : List Step :=
  match o.child? "property" with
  | none => fault o (.missing (.named "property"))
  | some property =>
    faultIf (!property.value.identifierName?.any Name.isName) o .invalidMemberName ++
      location property

/-- A member of an object, computed or named behind a dot. -/
def memberExpression (o : Occurrence) (scope : Scope) : List Step :=
  required o "object" .expression scope ++
    if isComputed o.value then required o "property" .expression scope else memberName o

/-- Expressions with commas between them, at least two. -/
def sequenceExpression (o : Occurrence) (scope : Scope) : List Step :=
  withList o "expressions" fun expressions =>
    faultIf (expressions.length < 2) o .shortSequence ++
      elements o "expressions" .expression false scope expressions

/-- Whether an expression deletes an identifier. -/
def deletesIdentifier (t : Tree) : Bool :=
  (t.get? "operator" >>= Tree.string? >>= UnaryOperator.ofToken?) == some .delete &&
    (t.child? "argument" >>= Tree.kind?) == some .identifier

/-- An operator before an expression. -/
def unaryExpression (o : Occurrence) (scope : Scope) : List Step :=
  operator o .unary ++ required o "argument" .expression scope ++
    faultIf (scope.strict && deletesIdentifier o.value) o .strictDelete

/-- An operator that changes a variable in place, before or behind it. -/
def updateExpression (o : Occurrence) (scope : Scope) : List Step :=
  operator o .update ++ required o "argument" .expression scope ++
    binding o scope (o.value.child? "argument") ++
    match o.value.child? "prefix" with
    | none | some (.bool _) => []
    | some _ => fault o .invalidPrefixFlag

/-! ## What is visited -/

theorem within_flatMap_fault {o p : Occurrence} {f : Option Fault} :
    Within o (f.toList.flatMap (fault p)) :=
  within_flatMap.2 fun _ _ => within_fault

theorem within_arrayExpression {o : Occurrence} {scope : Scope} :
    Within o (arrayExpression o scope) :=
  within_withList fun _ _ hlist hvalues => within_elements hlist hvalues _ _ _

theorem within_operation {o : Occurrence} {family : OperatorFamily} {scope : Scope} :
    Within o (operation family o scope) := by
  simp [operation]

theorem within_assignmentExpression {o : Occurrence} {scope : Scope} :
    Within o (assignmentExpression o scope) := by
  simp [assignmentExpression, within_operation]

theorem within_callExpression {o : Occurrence} {scope : Scope} :
    Within o (callExpression o scope) := by
  simp [callExpression]

theorem within_conditionalExpression {o : Occurrence} {scope : Scope} :
    Within o (conditionalExpression o scope) := by
  simp [conditionalExpression]

theorem within_identifier {o : Occurrence} {scope : Scope} : Within o (identifier o scope) :=
  within_flatMap_fault

theorem within_literal {o : Occurrence} : Within o (literal o) := within_flatMap_fault

theorem within_memberName {o : Occurrence} : Within o (memberName o) := by
  unfold memberName
  split <;> simp

theorem within_memberExpression {o : Occurrence} {scope : Scope} :
    Within o (memberExpression o scope) := by
  unfold memberExpression
  split <;> simp [within_memberName]

theorem within_sequenceExpression {o : Occurrence} {scope : Scope} :
    Within o (sequenceExpression o scope) :=
  within_withList fun _ _ hlist hvalues =>
    within_append.2 ⟨within_faultIf, within_elements hlist hvalues _ _ _⟩

theorem within_unaryExpression {o : Occurrence} {scope : Scope} :
    Within o (unaryExpression o scope) := by
  simp [unaryExpression]

theorem within_updateExpression {o : Occurrence} {scope : Scope} :
    Within o (updateExpression o scope) := by
  unfold updateExpression
  refine within_append.2 ⟨by simp, ?_⟩
  split <;> simp

end Rule

end ScriptTree
