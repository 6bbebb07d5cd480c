/-
  The rules of statements and of their parts: clauses, cases and declarators.
-/
import ScriptTree.Rule.DanglingElse
import ScriptTree.Rule.Step

namespace ScriptTree

namespace Rule

open Steps

/-- A block: statements, but no function declarations. -/
def blockStatement (o : Occurrence) (scope : Scope) : List Step :=
  list o "body" .statement scope

/-! ## Jumps and labels -/

/-- The label that a break or continue names. -/
def labelUse (o : Occurrence) (scope : Scope) : List Step :=
  optional o "label" .identifier scope ++
    match o.value.child? "label" >>= Tree.identifierName? with
    | some name => faultIf (!scope.hasLabel name) o (.unknownLabel name)
    | none => []

/-- A break leaves a loop or a switch. -/
def breakStatement (o : Occurrence) (scope : Scope) : List Step :=
  faultIf (!scope.breakable) o .breakOutside ++ labelUse o scope

/-- A continue stands in a loop. -/
def continueStatement (o : Occurrence) (scope : Scope) : List Step :=
  faultIf (!scope.inIteration) o .continueOutside ++ labelUse o scope

/-- A return stands in a function. -/
def returnStatement (o : Occurrence) (scope : Scope) : List Step :=
  faultIf (!scope.inFunction) o .returnOutside ++ optional o "argument" .expression scope

/-- A statement with a label, which is in scope in the statement even if it repeats one
    around it. -/
def labeledStatement (o : Occurrence) (scope : Scope) : List Step :=
  required o "label" .identifier scope ++
    match o.value.child? "label" >>= Tree.identifierName? with
    | some name =>
      faultIf (scope.hasLabel name) o (.duplicateLabel name) ++
        required o "body" .statement (scope.enter (.label name))
    | none => required o "body" .statement scope

/-! ## Loops -/

/-- The body of a loop. -/
def loopBody (o : Occurrence) (scope : Scope) : List Step :=
  required o "body" .statement (scope.enter .iteration)

/-- A loop with its test behind its body. -/
def doWhileStatement (o : Occurrence) (scope : Scope) : List Step :=
  loopBody o scope ++ required o "test" .expression scope

/-- A loop with its test before its body. -/
def whileStatement (o : Occurrence) (scope : Scope) : List Step :=
  required o "test" .expression scope ++ loopBody o scope

/-- A loop of which every part but the body may be left out. -/
def forStatement (o : Occurrence) (scope : Scope) : List Step :=
  optional o "init" .forInitializer scope ++ optional o "test" .expression scope ++
    optional o "update" .expression scope ++ loopBody o scope

/-- A loop over the names of the properties of an object; what stands at its left is
    bound. -/
def forInStatement (o : Occurrence) (scope : Scope) : List Step :=
  required o "left" .forInitializer scope ++ binding o scope (o.value.child? "left") ++
    required o "right" .expression scope ++ loopBody o scope

/-! ## Branches -/

/-- Whether the consequent of an `if` would take its `else`. -/
def elseDangles (t : Tree) : Bool :=
  (t.child? "alternate").isSome && (t.child? "consequent").any Tree.capturesElse

/-- A choice between two statements, of which the second may be left out. -/
def ifStatement (o : Occurrence) (scope : Scope) : List Step :=
  required o "test" .expression scope ++ required o "consequent" .statement scope ++
    optional o "alternate" .statement scope ++ faultIf (elseDangles o.value) o .danglingElse

/-- Whether a case of a switch is its default case. -/
def isDefaultCase (t : Tree) : Bool :=
  t.kind? == some .switchCase && (t.child? "test").isNone

/-- The cases of a switch: one record for each default case but the first. -/
def switchCases (o : Occurrence) (scope : Scope) (cases : List Tree) : List Step :=
  elements o "cases" .switchCase false scope cases ++
    (cases.filter isDefaultCase).tail.flatMap fun _ => fault o .repeatedDefault

/-- A switch: a value and its cases. -/
def switchStatement (o : Occurrence) (scope : Scope) : List Step :=
  required o "discriminant" .expression scope ++ withList o "cases" (switchCases o scope)

/-- A case of a switch; the default case has no test. -/
def switchCase (o : Occurrence) (scope : Scope) : List Step :=
  optional o "test" .expression scope ++ list o "consequent" .statement (scope.enter .switch)

/-! ## Exceptions -/

/-- The catch clauses of a try statement: a list, or a single one if there is no list. -/
def catchClauses (o : Occurrence) (scope : Scope) : List Step :=
  match o.value.child? "handlers" with
  | some handlers =>
    match handlers.elements? with
    | some clauses => elements o "handlers" .catchClause false scope clauses
    | none => fault o (.notArray (.named "handlers"))
  | none => optional o "handler" .catchClause scope

/-- Whether a try statement has a catch clause, as far as its fields show. -/
def hasCatchClause (t : Tree) : Bool :=
  match t.child? "handlers" with
  | some (.array clauses) => !clauses.isEmpty
  | some _ => true
  | none => (t.child? "handler").isSome

/-- A try statement: a block, and what to do when it fails or ends. -/
def tryStatement (o : Occurrence) (scope : Scope) : List Step :=
  required o "block" .blockStatement scope ++ catchClauses o scope ++
    optional o "finalizer" .blockStatement scope ++
    faultIf (!hasCatchClause o.value && (o.value.child? "finalizer").isNone) o .bareTry

/-- A catch clause: its parameter is bound in its body. -/
def catchClause (o : Occurrence) (scope : Scope) : List Step :=
  required o "param" .expression scope ++ binding o scope (o.value.child? "param") ++
    required o "body" .blockStatement scope

/-! ## Declarations -/

/-- Whether a declaration says of which kind it is. -/
def hasDeclarationKind (t : Tree) : Bool :=
  (t.get? "kind" >>= Tree.string?).any fun kind => ["var", "let", "const"].contains kind

/-- A declaration of variables, of at least one. -/
def variableDeclaration (o : Occurrence) (scope : Scope) : List Step :=
  faultIf (!hasDeclarationKind o.value) o .invalidDeclarationKind ++
    withList o "declarations" fun declarations =>
      elements o "declarations" .variableDeclarator false scope declarations ++
        faultIf declarations.isEmpty o .emptyDeclaration

/-- A variable in a declaration, and its first value if it has one. -/
def variableDeclarator (o : Occurrence) (scope : Scope) : List Step :=
  required o "id" .expression scope ++ binding o scope (o.value.child? "id") ++
    optional o "init" .expression scope

/-- A with statement, which strict code does not have. -/
def withStatement (o : Occurrence) (scope : Scope) : List Step :=
  faultIf scope.strict o .strictWith ++ required o "object" .expression scope ++
    required o "body" .statement scope

/-! ## What is visited -/

theorem within_labelUse {o : Occurrence} {scope : Scope} : Within o (labelUse o scope) := by
  unfold labelUse
  split <;> simp

theorem within_labeledStatement {o : Occurrence} {scope : Scope} :
    Within o (labeledStatement o scope) := by
  unfold labeledStatement
  split <;> simp

theorem within_switchStatement {o : Occurrence} {scope : Scope} :
    Within o (switchStatement o scope) :=
  within_append.2 ⟨within_required, within_withList fun _ _ hlist hvalues =>
    within_append.2 ⟨within_elements hlist hvalues _ _ _,
      within_flatMap.2 fun _ _ => within_fault⟩⟩

theorem within_catchClauses {o : Occurrence} {scope : Scope} :
    Within o (catchClauses o scope) := by
  unfold catchClauses
  split
  · next hlist =>
    split
    · next hvalues => exact within_elements hlist hvalues _ _ _
    · exact within_fault
  · exact within_optional

theorem within_variableDeclaration {o : Occurrence} {scope : Scope} :
    Within o (variableDeclaration o scope) :=
  within_append.2 ⟨within_faultIf, within_withList fun _ _ hlist hvalues =>
    within_append.2 ⟨within_elements hlist hvalues _ _ _, within_faultIf⟩⟩

end Rule

end ScriptTree
