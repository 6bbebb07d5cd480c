/-
  The rules of programs and functions: code with a directive prologue.

  A body that starts with the directive `"use strict"` is strict code.  For a function
  that covers its name and its parameters too, which stand before the body.

  * `Prologue.usesStrict`: whether the prologue of a body holds the directive.
  * `Rule.program`, `Rule.function`, `Rule.sourceElements`: programs, functions, and the
    statements and declarations in the body of a function.
-/
import ScriptTree.Rule.Step

namespace ScriptTree

namespace Prologue

/-- The text of a statement that may be a directive: a string literal by itself. -/
def directive? (statement : Tree) : Option String :=
  if statement.kind? = some .expressionStatement then do
    let expression ← statement.child? "expression"
    if expression.kind? = some .literal then expression.get? "value" >>= Tree.string?
    else none
  else none

/-- Whether one of the directives at the start of a body is `use strict`. -/
def usesStrict : List Tree → Bool
  | [] => false
  | statement :: rest =>
    match directive? statement with
    | some text => text = "use strict" || usesStrict rest
    | none => false

end Prologue

namespace Rule

open Steps

/-- A program: statements and function declarations. -/
def program (o : Occurrence) (scope : Scope) : List Step :=
  withList o "body" fun body =>
    elements o "body" .sourceElement false
      (if Prologue.usesStrict body then scope.enter .strict else scope) body

/-- Where a function comes from: a declaration needs a name, an expression does not. -/
inductive FunctionForm where
  | declaration
  | expression
  deriving DecidableEq, Repr

/-- The way into the body of a function. -/
def FunctionForm.bodyMove : FunctionForm → Scope.Move
  | .declaration => .declarationBody
  | .expression => .expressionBody

/-- The statements in the body of a function, if the body is a block with a list. -/
def bodyStatements? (function : Tree) : Option (List Tree) := do
  let body ← function.child? "body"
  if body.kind? = some .blockStatement then body.child? "body" >>= Tree.elements? else none

/-- Whether a function is strict, by its surroundings or by its own prologue. -/
def isStrictFunction (function : Tree) (scope : Scope) : Bool :=
  scope.strict || (bodyStatements? function).any Prologue.usesStrict

/-- The scope of the name and the parameters of a function. -/
def functionScope (function : Tree) (scope : Scope) : Scope :=
  if isStrictFunction function scope then scope.enter .strict else scope

/-- The name of a function. -/
def functionName (form : FunctionForm) (o : Occurrence) (scope : Scope) : List Step :=
  (match form with
    | .declaration => required o "id" .identifier scope
    | .expression => optional o "id" .identifier scope) ++
  binding o scope (o.value.child? "id")

/-- Names that occurred before in a list, once for each time they occur again. -/
def repeated (before : List String) : List String → List String
  | [] => []
  | name :: rest =>
    if before.contains name then name :: repeated before rest
    else repeated (name :: before) rest

/-- The parameters of a function. -/
def parameters (o : Occurrence) (scope : Scope) : List Step :=
  withList o "params" fun params =>
    elements o "params" .expression false scope params ++
    params.flatMap (fun param => binding o scope (some param)) ++
    if scope.strict then
      (repeated [] (params.filterMap Tree.identifierName?)).flatMap fun name =>
        fault o (.duplicateParameter name)
    else []

/-- The body of a function.  A node that is no block is reported, and visited in the
    scope of the function itself. -/
def functionBody (o : Occurrence) (outer inner : Scope) : List Step :=
  match o.child? "body" with
  | none => fault o (.missing (.named "body"))
  | some body =>
    if body.value.kind? = some .blockStatement then [.visit .functionBody inner body]
    else present o (.named "body") .blockStatement outer body

/-- A function: its name and parameters belong to its own code. -/
def function (form : FunctionForm) (o : Occurrence) (scope : Scope) : List Step :=
  let own := functionScope o.value scope
  functionName form o own ++ parameters o own ++
    functionBody o scope (own.enter form.bodyMove)

/-- The statements and declarations in the body of a function. -/
def sourceElements (o : Occurrence) (scope : Scope) : List Step :=
  list o "body" .sourceElement scope

/-! ## What is visited -/

theorem within_program {o : Occurrence} {scope : Scope} : Within o (program o scope) :=
  within_withList fun _ _ hlist hvalues => within_elements hlist hvalues _ _ _

theorem within_functionName {form : FunctionForm} {o : Occurrence} {scope : Scope} :
    Within o (functionName form o scope) := by
  cases form <;> simp [functionName]

theorem within_parameters {o : Occurrence} {scope : Scope} : Within o (parameters o scope) := by
  refine within_withList fun _ _ hlist hvalues => ?_
  refine within_append.2 ⟨within_append.2 ⟨within_elements hlist hvalues _ _ _,
    within_flatMap.2 fun _ _ => within_binding⟩, ?_⟩
  split
  · exact within_flatMap.2 fun _ _ => within_fault
  · exact within_nil

theorem within_functionBody {o : Occurrence} {outer inner : Scope} :
    Within o (functionBody o outer inner) := by
  unfold functionBody
  split
  · exact within_fault
  · next h =>
    split
    · exact within_visit (Occurrence.sizeOf_lt_of_child? h)
    · exact within_present (Occurrence.sizeOf_lt_of_child? h)

theorem within_function {form : FunctionForm} {o : Occurrence} {scope : Scope} :
    Within o (function form o scope) := by
  simp [function, within_functionName, within_parameters, within_functionBody]

theorem within_sourceElements {o : Occurrence} {scope : Scope} :
    Within o (sourceElements o scope) := within_list

end Rule

end ScriptTree
