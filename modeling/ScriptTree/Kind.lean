/-
  The kinds of nodes in a tree of ECMAScript 5, and the families that positions in a
  tree ask for.

  * `Kind`, `Kind.name`: the thirty-nine kinds and their type names; `ofName?_eq_some_iff`
    says that a type name stands for one kind.
  * `isExpression`, `isStatement`, `isSourceElement`, `isIteration`: families of kinds.
  * `Category`: what a position may ask for.
-/

namespace ScriptTree

/-- A kind of node. -/
inductive Kind where
  | program
  | arrayExpression
  | assignmentExpression
  | binaryExpression
  | callExpression
  | conditionalExpression
  | functionExpression
  | identifier
  | literal
  | logicalExpression
  | memberExpression
  | newExpression
  | objectExpression
  | sequenceExpression
  | thisExpression
  | unaryExpression
  | updateExpression
  | blockStatement
  | breakStatement
  | continueStatement
  | debuggerStatement
  | doWhileStatement
  | emptyStatement
  | expressionStatement
  | forInStatement
  | forStatement
  | ifStatement
  | labeledStatement
  | returnStatement
  | switchStatement
  | throwStatement
  | tryStatement
  | variableDeclaration
  | whileStatement
  | withStatement
  | functionDeclaration
  | catchClause
  | switchCase
  | variableDeclarator
  deriving DecidableEq, Repr, Inhabited

namespace Kind

/-- The type name of a kind. -/
def name : Kind → String
  | .program => "Program"
  | .arrayExpression => "ArrayExpression"
  | .assignmentExpression => "AssignmentExpression"
  | .binaryExpression => "BinaryExpression"
  | .callExpression => "CallExpression"
  | .conditionalExpression => "ConditionalExpression"
  | .functionExpression => "FunctionExpression"
  | .identifier => "Identifier"
  | .literal => "Literal"
  | .logicalExpression => "LogicalExpression"
  | .memberExpression => "MemberExpression"
  | .newExpression => "NewExpression"
  | .objectExpression => "ObjectExpression"
  | .sequenceExpression => "SequenceExpression"
  | .thisExpression => "ThisExpression"
  | .unaryExpression => "UnaryExpression"
  | .updateExpression => "UpdateExpression"
  | .blockStatement => "BlockStatement"
  | .breakStatement => "BreakStatement"
  | .continueStatement => "ContinueStatement"
  | .debuggerStatement => "DebuggerStatement"
  | .doWhileStatement => "DoWhileStatement"
  | .emptyStatement => "EmptyStatement"
  | .expressionStatement => "ExpressionStatement"
  | .forInStatement => "ForInStatement"
  | .forStatement => "ForStatement"
  | .ifStatement => "IfStatement"
  | .labeledStatement => "LabeledStatement"
  | .returnStatement => "ReturnStatement"
  | .switchStatement => "SwitchStatement"
  | .throwStatement => "ThrowStatement"
  | .tryStatement => "TryStatement"
  | .variableDeclaration => "VariableDeclaration"
  | .whileStatement => "WhileStatement"
  | .withStatement => "WithStatement"
  | .functionDeclaration => "FunctionDeclaration"
  | .catchClause => "CatchClause"
  | .switchCase => "SwitchCase"
  | .variableDeclarator => "VariableDeclarator"

/-- Every kind, once. -/
def all : List Kind :=
  [.program, .arrayExpression, .assignmentExpression, .binaryExpression, .callExpression,
   .conditionalExpression, .functionExpression, .identifier, .literal, .logicalExpression,
   .memberExpression, .newExpression, .objectExpression, .sequenceExpression, .thisExpression,
   .unaryExpression, .updateExpression, .blockStatement, .breakStatement, .continueStatement,
   .debuggerStatement, .doWhileStatement, .emptyStatement, .expressionStatement,
   .forInStatement, .forStatement, .ifStatement, .labeledStatement, .returnStatement,
   .switchStatement, .throwStatement, .tryStatement, .variableDeclaration, .whileStatement,
   .withStatement, .functionDeclaration, .catchClause, .switchCase, .variableDeclarator]

/-- The kind with a type name, if there is one. -/
def ofName? (s : String) : Option Kind := all.find? (·.name == s)

theorem mem_all (k : Kind) : k ∈ all := by cases k <;> decide

theorem ofName?_name (k : Kind) : ofName? k.name = some k := by cases k <;> decide

theorem ofName?_eq_some_iff {s : String} {k : Kind} : ofName? s = some k ↔ k.name = s := by
  constructor
  · intro h
    simpa using List.find?_some h
  · rintro rfl
    exact ofName?_name k

theorem ofName?_eq_none_iff {s : String} : ofName? s = none ↔ ∀ k : Kind, k.name ≠ s := by
  simp only [ofName?, List.find?_eq_none, beq_iff_eq]
  exact ⟨fun h k => h k (mem_all k), fun h k _ => h k⟩

/-- The kinds of nodes that compute a value. -/
def isExpression : Kind → Bool
  | .arrayExpression | .assignmentExpression | .binaryExpression | .callExpression
  | .conditionalExpression | .functionExpression | .identifier | .literal
  | .logicalExpression | .memberExpression | .newExpression | .objectExpression
  | .sequenceExpression | .thisExpression | .unaryExpression | .updateExpression => true
  | _ => false

/-- The kinds of nodes that do something; a function declaration is not one of them. -/
def isStatement : Kind → Bool
  | .blockStatement | .breakStatement | .continueStatement | .debuggerStatement
  | .doWhileStatement | .emptyStatement | .expressionStatement | .forInStatement
  | .forStatement | .ifStatement | .labeledStatement | .returnStatement | .switchStatement
  | .throwStatement | .tryStatement | .variableDeclaration | .whileStatement
  | .withStatement => true
  | _ => false

/-- A statement or a function declaration, as the bodies of programs and functions hold
    them. -/
def isSourceElement (k : Kind) : Bool := k.isStatement || k == .functionDeclaration

/-- The statements that repeat a body. -/
def isIteration : Kind → Bool
  | .doWhileStatement | .forInStatement | .forStatement | .whileStatement => true
  | _ => false

end Kind

/-- What a position in a tree may ask for. -/
inductive Category where
  | expression
  | statement
  | sourceElement
  | identifier
  | blockStatement
  | catchClause
  | switchCase
  | variableDeclarator
  /-- The left side of a for-in statement, or the first part of a for statement. -/
  | forInitializer
  deriving DecidableEq, Repr, Inhabited

namespace Category

/-- Whether a kind is what a position asks for. -/
def contains : Category → Kind → Bool
  | .expression, k => k.isExpression
  | .statement, k => k.isStatement
  | .sourceElement, k => k.isSourceElement
  | .identifier, k => k == .identifier
  | .blockStatement, k => k == .blockStatement
  | .catchClause, k => k == .catchClause
  | .switchCase, k => k == .switchCase
  | .variableDeclarator, k => k == .variableDeclarator
  | .forInitializer, k => k.isExpression || k == .variableDeclaration

/-- How a message names a category. -/
def phrase : Category → String
  | .expression => "an expression"
  | .statement => "a statement"
  | .sourceElement => "a statement or function declaration"
  | .identifier => "an Identifier"
  | .blockStatement => "a BlockStatement"
  | .catchClause => "a CatchClause"
  | .switchCase => "a SwitchCase"
  | .variableDeclarator => "a VariableDeclarator"
  | .forInitializer => "an expression or VariableDeclaration"

end Category

end ScriptTree
