/-
  The rule of every kind of node.

  * `rule`: the steps for a node, its source location first.
  * `within_rule`: they visit nothing but values inside the node.
-/
import ScriptTree.Rule.Expression
import ScriptTree.Rule.Function
import ScriptTree.Rule.Property
import ScriptTree.Rule.Statement

namespace ScriptTree

namespace Rule

open Steps

/-- The steps for a node of a kind, apart from its location. -/
def ofKind (kind : Kind) (o : Occurrence) (scope : Scope) : List Step :=
  match kind with
  | .program => program o scope
  | .arrayExpression => arrayExpression o scope
  | .assignmentExpression => assignmentExpression o scope
  | .binaryExpression => operation .binary o scope
  | .callExpression | .newExpression => callExpression o scope
  | .conditionalExpression => conditionalExpression o scope
  | .functionExpression => function .expression o scope
  | .identifier => identifier o scope
  | .literal => literal o
  | .logicalExpression => operation .logical o scope
  | .memberExpression => memberExpression o scope
  | .objectExpression => objectExpression o scope
  | .sequenceExpression => sequenceExpression o scope
  | .thisExpression | .debuggerStatement | .emptyStatement => []
  | .unaryExpression => unaryExpression o scope
  | .updateExpression => updateExpression o scope
  | .blockStatement => blockStatement o scope
  | .breakStatement => breakStatement o scope
  | .continueStatement => continueStatement o scope
  | .doWhileStatement => doWhileStatement o scope
  | .expressionStatement => required o "expression" .expression scope
  | .forInStatement => forInStatement o scope
  | .forStatement => forStatement o scope
  | .ifStatement => ifStatement o scope
  | .labeledStatement => labeledStatement o scope
  | .returnStatement => returnStatement o scope
  | .switchStatement => switchStatement o scope
  | .throwStatement => required o "argument" .expression scope
  | .tryStatement => tryStatement o scope
  | .variableDeclaration => variableDeclaration o scope
  | .whileStatement => whileStatement o scope
  | .withStatement => withStatement o scope
  | .functionDeclaration => function .declaration o scope
  | .catchClause => catchClause o scope
  | .switchCase => switchCase o scope
  | .variableDeclarator => variableDeclarator o scope

theorem within_ofKind {kind : Kind} {o : Occurrence} {scope : Scope} :
    Within o (ofKind kind o scope) := by
  cases kind with
  | program => exact within_program
  | arrayExpression => exact within_arrayExpression
  | assignmentExpression => exact within_assignmentExpression
  | binaryExpression => exact within_operation
  | callExpression => exact within_callExpression
  | newExpression => exact within_callExpression
  | conditionalExpression => exact within_conditionalExpression
  | functionExpression => exact within_function
  | identifier => exact within_identifier
  | literal => exact within_literal
  | logicalExpression => exact within_operation
  | memberExpression => exact within_memberExpression
  | objectExpression => exact within_objectExpression
  | sequenceExpression => exact within_sequenceExpression
  | thisExpression => exact within_nil
  | debuggerStatement => exact within_nil
  | emptyStatement => exact within_nil
  | unaryExpression => exact within_unaryExpression
  | updateExpression => exact within_updateExpression
  | blockStatement => exact within_list
  | breakStatement => simp [ofKind, breakStatement, within_labelUse]
  | continueStatement => simp [ofKind, continueStatement, within_labelUse]
  | doWhileStatement => simp [ofKind, doWhileStatement, loopBody]
  | expressionStatement => exact within_required
  | forInStatement => simp [ofKind, forInStatement, loopBody]
  | forStatement => simp [ofKind, forStatement, loopBody]
  | ifStatement => simp [ofKind, ifStatement]
  | labeledStatement => exact within_labeledStatement
  | returnStatement => simp [ofKind, returnStatement]
  | switchStatement => exact within_switchStatement
  | throwStatement => exact within_required
  | tryStatement => simp [ofKind, tryStatement, within_catchClauses]
  | variableDeclaration => exact within_variableDeclaration
  | whileStatement => simp [ofKind, whileStatement, loopBody]
  | withStatement => simp [ofKind, withStatement]
  | functionDeclaration => exact within_function
  | catchClause => simp [ofKind, catchClause]
  | switchCase => simp [ofKind, switchCase]
  | variableDeclarator => simp [ofKind, variableDeclarator]

end Rule

/-- The steps for a node of a kind, in a role and a scope. -/
def rule (role : Role) (scope : Scope) (o : Occurrence) (kind : Kind) : List Step :=
  Steps.location o ++
    match role with
    | .node => Rule.ofKind kind o scope
    | .functionBody => Rule.sourceElements o scope

theorem within_rule {role : Role} {scope : Scope} {o : Occurrence} {kind : Kind} :
    Steps.Within o (rule role scope o kind) := by
  cases role <;> simp [rule, Rule.within_ofKind, Rule.within_sourceElements]

end ScriptTree
