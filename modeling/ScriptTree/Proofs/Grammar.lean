/-
  The reference grammar: where the nodes stand in a node.

  * `Slot`: a field of a node that holds nodes, how many of which category, and what of
    the scope changes on the way to them.
  * `Grammar.slots`: the slots of every kind of node.
  * `visits_rule`: a rule visits what stands in the slots of its node, and nothing else;
    `Visit.next_eq` says the same of a visit.
  * `Tree.Stands`: what stands in a tree by the slots of its nodes, whatever the rules visit;
    `visits_iff_stands`: it is what the traversal visits.
-/
import Mathlib.Data.List.Basic
import ScriptTree.Proofs.Visit

namespace ScriptTree

/-- How many nodes a field holds. -/
inductive Slot.Shape where
  /-- One node, which must be present. -/
  | one
  /-- A node that may be absent. -/
  | maybe
  | list
  /-- A list that may have holes. -/
  | sparse
  /-- A list of records, each of them with a node as its value. -/
  | values
  deriving DecidableEq, Repr

/-- A field of a node that holds nodes. -/
structure Slot where
  field : String
  shape : Slot.Shape
  category : Category
  /-- The role of the nodes in the slot. -/
  role : Role
  /-- The moves on the way into the slot, the first one first. -/
  moves : List Scope.Move
  deriving DecidableEq, Repr

/-- The elements of a field that is a list, with their indices. -/
def Tree.indexed (t : Tree) (name : String) : List (Tree × Nat) :=
  ((t.child? name >>= Tree.elements?).getD []).zipIdx

namespace Slot

def one (field : String) (category : Category) : Slot := ⟨field, .one, category, .node, []⟩

def maybe (field : String) (category : Category) : Slot := ⟨field, .maybe, category, .node, []⟩

def list (field : String) (category : Category) : Slot := ⟨field, .list, category, .node, []⟩

/-- A slot behind some moves. -/
def behind (s : Slot) (moves : List Scope.Move) : Slot := { s with moves := moves }

/-- The occurrence of an element, if it is no hole. -/
def occupant? (o : Occurrence) (field : String) : Tree × Nat → Option Occurrence
  | (.null, _) => none
  | (value, index) => some (o.element field index value)

/-- The value of a record in a list. -/
def recordValue? (o : Occurrence) (field : String) : Tree × Nat → Option Occurrence
  | (value, index) => (o.element field index value).child? "value"

/-- What stands in a slot of a node. -/
def occupants (s : Slot) (o : Occurrence) : List Occurrence :=
  match s.shape with
  | .one | .maybe => (o.child? s.field).toList
  | .list | .sparse => (o.value.indexed s.field).filterMap (occupant? o s.field)
  | .values => (o.value.indexed s.field).filterMap (recordValue? o s.field)

/-- The scope in a slot of a node. -/
def scope (s : Slot) (outer : Scope) : Scope := s.moves.foldl Scope.enter outer

/-- The visits of a slot of a node. -/
def visits (s : Slot) (outer : Scope) (o : Occurrence) : List Visit :=
  (s.occupants o).map fun c => ⟨s.role, s.scope outer, c⟩

end Slot

namespace Grammar

open Slot

/-- Into strict code, if a body has the directive. -/
def strictMoves (body : Option (List Tree)) : List Scope.Move :=
  if body.any Prologue.usesStrict then [.strict] else []

/-- Into the scope of a label, if a statement has one with a name. -/
def labelMoves (statement : Tree) : List Scope.Move :=
  match statement.child? "label" >>= Tree.identifierName? with
  | some name => [.label name]
  | none => []

/-- The body of a function.  It is the body of a function only if it is a block. -/
def bodySlot (form : Rule.FunctionForm) (function : Tree) : Slot :=
  if function.child? "body" >>= Tree.kind? = some .blockStatement then
    ⟨"body", .one, .blockStatement, .functionBody,
      strictMoves (Rule.bodyStatements? function) ++ [form.bodyMove]⟩
  else one "body" .blockStatement

theorem bodySlot_field (form : Rule.FunctionForm) (function : Tree) :
    (bodySlot form function).field = "body" := by
  unfold bodySlot
  split <;> rfl

theorem bodySlot_shape (form : Rule.FunctionForm) (function : Tree) :
    (bodySlot form function).shape = .one := by
  unfold bodySlot
  split <;> rfl

/-- The slots of a function.  Its own directive covers its name and its parameters. -/
def functionSlots (form : Rule.FunctionForm) (function : Tree) : List Slot :=
  let own := strictMoves (Rule.bodyStatements? function)
  [(match form with
    | .declaration => one "id" .identifier
    | .expression => maybe "id" .identifier).behind own,
   (list "params" .expression).behind own,
   bodySlot form function]

/-- The body of a loop. -/
def loopSlot : Slot := (one "body" .statement).behind [.iteration]

/-- The catch clauses of a try statement, in the field that holds them. -/
def catchSlot (statement : Tree) : Slot :=
  if (statement.child? "handlers").isSome then list "handlers" .catchClause
  else maybe "handler" .catchClause

/-- The slots of a node of a kind. -/
def slotsOfKind (t : Tree) : Kind → List Slot
  | .program =>
    [(list "body" .sourceElement).behind (strictMoves (t.child? "body" >>= Tree.elements?))]
  | .arrayExpression => [{ list "elements" .expression with shape := .sparse }]
  | .assignmentExpression | .binaryExpression | .logicalExpression =>
    [one "left" .expression, one "right" .expression]
  | .callExpression | .newExpression => [one "callee" .expression, list "arguments" .expression]
  | .conditionalExpression =>
    [one "test" .expression, one "consequent" .expression, one "alternate" .expression]
  | .functionExpression => functionSlots .expression t
  | .functionDeclaration => functionSlots .declaration t
  | .memberExpression =>
    one "object" .expression ::
      if Rule.isComputed t then [one "property" .expression] else []
  | .objectExpression => [{ list "properties" .expression with shape := .values }]
  | .sequenceExpression => [list "expressions" .expression]
  | .unaryExpression | .updateExpression | .throwStatement => [one "argument" .expression]
  | .identifier | .literal | .thisExpression | .debuggerStatement | .emptyStatement => []
  | .blockStatement => [list "body" .statement]
  | .breakStatement | .continueStatement => [maybe "label" .identifier]
  | .doWhileStatement => [loopSlot, one "test" .expression]
  | .expressionStatement => [one "expression" .expression]
  | .forInStatement => [one "left" .forInitializer, one "right" .expression, loopSlot]
  | .forStatement =>
    [maybe "init" .forInitializer, maybe "test" .expression, maybe "update" .expression,
     loopSlot]
  | .ifStatement =>
    [one "test" .expression, one "consequent" .statement, maybe "alternate" .statement]
  | .labeledStatement =>
    [one "label" .identifier, (one "body" .statement).behind (labelMoves t)]
  | .returnStatement => [maybe "argument" .expression]
  | .switchStatement => [one "discriminant" .expression, list "cases" .switchCase]
  | .switchCase =>
    [maybe "test" .expression, (list "consequent" .statement).behind [.switch]]
  | .tryStatement =>
    [one "block" .blockStatement, catchSlot t, maybe "finalizer" .blockStatement]
  | .catchClause => [one "param" .expression, one "body" .blockStatement]
  | .variableDeclaration => [list "declarations" .variableDeclarator]
  | .variableDeclarator => [one "id" .expression, maybe "init" .expression]
  | .whileStatement => [one "test" .expression, loopSlot]
  | .withStatement => [one "object" .expression, one "body" .statement]

/-- The slots of a node.  The body of a function may hold declarations of functions. -/
def slots (role : Role) (t : Tree) (kind : Kind) : List Slot :=
  match role with
  | .node => slotsOfKind t kind
  | .functionBody => [list "body" .sourceElement]

end Grammar

/-! ## The visits of the combinators -/

namespace Steps

variable {o : Occurrence} {name : String} {category : Category} {scope : Scope}

theorem visits_present (field : Field) (c : Occurrence) :
    visits (present o field category scope c) = [⟨.node, scope, c⟩] := by
  unfold present
  split <;> simp [visits, Step.visit?, faultIf, fault]

@[simp] theorem visits_required :
    visits (required o name category scope) = (Slot.one name category).visits scope o := by
  unfold required Slot.visits Slot.occupants
  cases h : o.child? name with
  | none => simp [Slot.one, h]
  | some c => simp [Slot.one, Slot.scope, h, visits_present]

@[simp] theorem visits_optional :
    visits (optional o name category scope) = (Slot.maybe name category).visits scope o := by
  unfold optional Slot.visits Slot.occupants
  cases h : o.child? name with
  | none => simp [Slot.maybe, h]
  | some c => simp [Slot.maybe, Slot.scope, h, visits_present]

theorem visits_element (holes : Bool) (value : Tree) (index : Nat) :
    visits (element o name category holes scope value index) =
      ((Slot.occupant? o name (value, index)).map fun c => ⟨.node, scope, c⟩).toList := by
  cases value with
  | null => simp [element, Slot.occupant?]
  | _ => simp [element, Slot.occupant?, visits_present]

theorem visits_elements (holes : Bool) (values : List Tree) :
    visits (elements o name category holes scope values) =
      (values.zipIdx.filterMap (Slot.occupant? o name)).map fun c => ⟨.node, scope, c⟩ := by
  rw [elements, visits_flatMap, List.map_filterMap, List.filterMap_eq_flatMap_toList]
  exact congrArg (List.flatMap · _) (funext fun (value, index) => visits_element holes value index)

/-- A list visits what its elements visit, if it is one. -/
theorem visits_withList {steps : List Tree → List Step} (hnil : visits (steps []) = []) :
    visits (withList o name steps) =
      visits (steps ((o.value.child? name >>= Tree.elements?).getD [])) := by
  unfold withList
  cases h : o.value.child? name with
  | none => simp [hnil]
  | some list =>
    cases hvalues : list.elements? with
    | none => simp [hvalues, hnil]
    | some values => simp [hvalues]

@[simp] theorem visits_list :
    visits (list o name category scope) = (Slot.list name category).visits scope o := by
  rw [list, visits_withList rfl, visits_elements]
  rfl

@[simp] theorem visits_operator (family : OperatorFamily) : visits (operator o family) = [] := by
  unfold operator
  split <;> simp

@[simp] theorem visits_binding (target : Option Tree) : visits (binding o scope target) = [] := by
  unfold binding
  split
  · split <;> simp
  · rfl

theorem visits_flatMap_fault {α : Type} (l : List α) (f : α → Fault) :
    visits (l.flatMap fun a => fault o (f a)) = [] := by
  simp [visits_flatMap]

end Steps

/-! ## The visits of the rules -/

namespace Rule

open Steps Grammar

variable {o : Occurrence} {scope : Scope}

/-- Moves may be made before a slot or on the way into it. -/
theorem visits_behind (s : Slot) (moves : List Scope.Move) (hs : s.moves = []) :
    s.visits (moves.foldl Scope.enter scope) o = (s.behind moves).visits scope o := by
  simp [Slot.visits, Slot.scope, Slot.behind, Slot.occupants, hs]

theorem foldl_strictMoves (body : Option (List Tree)) :
    (strictMoves body).foldl Scope.enter scope =
      if body.any Prologue.usesStrict then scope.enter .strict else scope := by
  unfold strictMoves
  split <;> rfl

theorem functionScope_eq (function : Tree) :
    functionScope function scope =
      (strictMoves (bodyStatements? function)).foldl Scope.enter scope := by
  rw [foldl_strictMoves, functionScope, isStrictFunction]
  cases hstrict : scope.strict with
  | false => simp
  | true =>
    have henter : scope.enter .strict = scope := by
      cases scope
      simp_all [Scope.enter]
    simp [henter]

theorem visits_program :
    visits (program o scope) = ((Slot.list "body" .sourceElement).behind
      (strictMoves (o.value.child? "body" >>= Tree.elements?))).visits scope o := by
  rw [program, visits_withList rfl, visits_elements, ← visits_behind _ _ rfl, foldl_strictMoves]
  cases hbody : o.value.child? "body" >>= Tree.elements? with
  | none => simp [Slot.visits, Slot.occupants, Slot.list, Tree.indexed, hbody]
  | some body => simp [Slot.visits, Slot.occupants, Slot.list, Slot.scope, Tree.indexed, hbody]

theorem visits_functionName (form : FunctionForm) :
    visits (functionName form o scope) = (match form with
      | .declaration => Slot.one "id" .identifier
      | .expression => Slot.maybe "id" .identifier).visits scope o := by
  cases form <;> simp [functionName]

theorem visits_parameters :
    visits (parameters o scope) = (Slot.list "params" .expression).visits scope o := by
  have hlast : ∀ params : List Tree, visits (if scope.strict then
      (repeated [] (params.filterMap Tree.identifierName?)).flatMap fun name =>
        fault o (.duplicateParameter name)
      else []) = [] := by
    intro params
    split
    · exact visits_flatMap_fault _ _
    · rfl
  have hsteps : ∀ params : List Tree, visits (elements o "params" .expression false scope params ++
      params.flatMap (fun param => binding o scope (some param)) ++ if scope.strict then
        (repeated [] (params.filterMap Tree.identifierName?)).flatMap fun name =>
          fault o (.duplicateParameter name)
        else []) = visits (elements o "params" .expression false scope params) := by
    intro params
    rw [visits_append, visits_append, hlast, visits_flatMap]
    simp
  rw [parameters, visits_withList (hsteps []), hsteps, visits_elements]
  rfl

theorem visits_functionBody (form : FunctionForm) :
    visits (functionBody o scope ((functionScope o.value scope).enter form.bodyMove)) =
      (bodySlot form o.value).visits scope o := by
  cases h : o.child? "body" with
  | none =>
    have hoccupants : ∀ s : Slot, s.shape = .one → s.field = "body" → s.visits scope o = [] := by
      intro s hshape hfield
      simp [Slot.visits, Slot.occupants, hshape, hfield, h]
    rw [functionBody, h, hoccupants _ (bodySlot_shape form _) (bodySlot_field form _)]
    rfl
  | some body =>
    have hkind : (o.value.child? "body" >>= Tree.kind?) = body.value.kind? := by
      rw [(Occurrence.child?_eq_some_iff.1 h).1]; rfl
    rw [functionBody, h, bodySlot, hkind]
    by_cases hblock : body.value.kind? = some .blockStatement
    · simp only [hblock, if_true]
      simp [Slot.visits, Slot.occupants, Slot.scope, h, functionScope_eq, visits, Step.visit?]
    · simp only [hblock, if_false]
      simp [visits_present, Slot.visits, Slot.occupants, Slot.one, Slot.scope, h]

theorem visits_function (form : FunctionForm) :
    visits (function form o scope) =
      (functionSlots form o.value).flatMap fun s => s.visits scope o := by
  rw [function, visits_append, visits_append, visits_functionName, visits_parameters,
    visits_functionBody, functionScope_eq, visits_behind _ _ (by cases form <;> rfl),
    visits_behind _ _ rfl]
  simp [functionSlots]

@[simp] theorem visits_propertyKey {p : Occurrence} : visits (propertyKey p) = [] := by
  unfold propertyKey
  split <;> simp

@[simp] theorem visits_accessor {p : Occurrence} : visits (accessor p) = [] := by
  unfold accessor
  split <;> simp

@[simp] theorem visits_conflict {p : Occurrence} {names : SeenNames} :
    visits (conflict p scope names) = [] := by
  unfold conflict
  split
  · exact visits_flatMap_fault _ _
  · rfl

theorem visits_property {p : Occurrence} {names : SeenNames} :
    visits (property p scope names) = (Slot.one "value" .expression).visits scope p := by
  simp [property]

theorem visits_properties (names : SeenNames) (values : List (Tree × Nat)) :
    visits (properties o scope names values) =
      (values.filterMap (Slot.recordValue? o "properties")).map fun c => ⟨.node, scope, c⟩ := by
  induction values generalizing names with
  | nil => rfl
  | cons p rest ih =>
    obtain ⟨value, index⟩ := p
    rw [properties]
    cases hvalue : (o.element "properties" index value).child? "value" with
    | none =>
      have hnone : Slot.recordValue? o "properties" (value, index) = none := hvalue
      rw [List.filterMap_cons_none hnone]
      split
      · simp [visits_property, Slot.visits, Slot.occupants, Slot.one, hvalue, ih]
      · simp [ih]
    | some c =>
      have hsome : Slot.recordValue? o "properties" (value, index) = some c := hvalue
      have hobject : value.isObject = true :=
        Tree.isObject_of_get? (Tree.child?_eq_some_iff.1
          (Occurrence.child?_eq_some_iff.1 hvalue).1).1
      rw [List.filterMap_cons_some hsome, if_pos hobject]
      simp [visits_property, Slot.visits, Slot.occupants, Slot.one, Slot.scope, hvalue, ih]

theorem visits_objectExpression :
    visits (objectExpression o scope) =
      (⟨"properties", .values, .expression, .node, []⟩ : Slot).visits scope o := by
  rw [objectExpression, visits_withList rfl, visits_properties]
  rfl

theorem visits_labelUse :
    visits (labelUse o scope) = (Slot.maybe "label" .identifier).visits scope o := by
  unfold labelUse
  split <;> simp

theorem visits_labeledStatement :
    visits (labeledStatement o scope) = (slotsOfKind o.value .labeledStatement).flatMap
      fun s => s.visits scope o := by
  unfold labeledStatement
  split
  · next name hname =>
    simp [slotsOfKind, labelMoves, hname,
      ← visits_behind (.one "body" .statement) [.label name] rfl]
  · next hname =>
    simp [slotsOfKind, labelMoves, hname, ← visits_behind (.one "body" .statement) [] rfl]

theorem visits_loopBody : visits (loopBody o scope) = loopSlot.visits scope o := by
  rw [loopBody, visits_required, loopSlot, ← visits_behind _ _ rfl]
  rfl

theorem visits_switchStatement :
    visits (switchStatement o scope) = (slotsOfKind o.value .switchStatement).flatMap
      fun s => s.visits scope o := by
  have hcases : ∀ cases : List Tree, visits (switchCases o scope cases) =
      visits (elements o "cases" .switchCase false scope cases) := by
    intro cases
    rw [switchCases, visits_append, visits_flatMap_fault, List.append_nil]
  rw [switchStatement, visits_append, visits_withList (hcases []), hcases, visits_elements]
  simp [slotsOfKind, Slot.visits, Slot.occupants, Slot.list, Slot.scope, Tree.indexed]

theorem catchClauses_eq :
    catchClauses o scope =
      if (o.value.child? "handlers").isSome then list o "handlers" .catchClause scope
      else optional o "handler" .catchClause scope := by
  unfold catchClauses list withList
  cases hhandlers : o.value.child? "handlers" with
  | none => rfl
  | some handlers => cases hclauses : handlers.elements? <;> simp [hclauses]

theorem visits_catchClauses :
    visits (catchClauses o scope) = (catchSlot o.value).visits scope o := by
  rw [catchClauses_eq, catchSlot]
  split <;> simp

theorem visits_variableDeclaration :
    visits (variableDeclaration o scope) =
      (Slot.list "declarations" .variableDeclarator).visits scope o := by
  rw [variableDeclaration, visits_append, visits_faultIf, List.nil_append]
  rw [visits_withList (by simp [visits_elements]), visits_append, visits_faultIf,
    List.append_nil, visits_elements]
  rfl

@[simp] theorem visits_memberName : visits (memberName o) = [] := by
  unfold memberName
  split <;> simp

theorem visits_memberExpression :
    visits (memberExpression o scope) = (slotsOfKind o.value .memberExpression).flatMap
      fun s => s.visits scope o := by
  rw [memberExpression, slotsOfKind]
  split <;> simp

theorem visits_sequenceExpression :
    visits (sequenceExpression o scope) =
      (Slot.list "expressions" .expression).visits scope o := by
  rw [sequenceExpression, visits_withList (by simp [visits_elements]), visits_append,
    visits_faultIf, List.nil_append, visits_elements]
  rfl

theorem visits_updateExpression :
    visits (updateExpression o scope) = (Slot.one "argument" .expression).visits scope o := by
  unfold updateExpression
  rw [visits_append]
  split <;> simp

theorem visits_ofKind (kind : Kind) :
    visits (ofKind kind o scope) = (slotsOfKind o.value kind).flatMap
      fun s => s.visits scope o := by
  cases kind with
  | program => simp [ofKind, slotsOfKind, visits_program]
  | arrayExpression =>
    rw [ofKind, arrayExpression, visits_withList rfl, visits_elements]
    simp [slotsOfKind, Slot.visits, Slot.occupants, Slot.list, Slot.scope, Tree.indexed]
  | assignmentExpression => simp [ofKind, assignmentExpression, operation, slotsOfKind]
  | binaryExpression | logicalExpression => simp [ofKind, operation, slotsOfKind]
  | callExpression | newExpression => simp [ofKind, callExpression, slotsOfKind]
  | conditionalExpression => simp [ofKind, conditionalExpression, slotsOfKind]
  | functionExpression | functionDeclaration => exact visits_function _
  | identifier => exact visits_flatMap_fault _ id
  | literal => exact visits_flatMap_fault _ id
  | memberExpression => exact visits_memberExpression
  | objectExpression => simp [ofKind, slotsOfKind, visits_objectExpression, Slot.list]
  | sequenceExpression => simp [ofKind, slotsOfKind, visits_sequenceExpression]
  | thisExpression | debuggerStatement | emptyStatement => rfl
  | unaryExpression => simp [ofKind, unaryExpression, slotsOfKind]
  | updateExpression => simp [ofKind, slotsOfKind, visits_updateExpression]
  | blockStatement => simp [ofKind, blockStatement, slotsOfKind]
  | breakStatement => simp [ofKind, breakStatement, slotsOfKind, visits_labelUse]
  | continueStatement => simp [ofKind, continueStatement, slotsOfKind, visits_labelUse]
  | doWhileStatement => simp [ofKind, doWhileStatement, slotsOfKind, visits_loopBody]
  | expressionStatement | throwStatement => simp [ofKind, slotsOfKind]
  | forInStatement => simp [ofKind, forInStatement, slotsOfKind, visits_loopBody]
  | forStatement => simp [ofKind, forStatement, slotsOfKind, visits_loopBody]
  | ifStatement => simp [ofKind, ifStatement, slotsOfKind]
  | labeledStatement => exact visits_labeledStatement
  | returnStatement => simp [ofKind, returnStatement, slotsOfKind]
  | switchStatement => exact visits_switchStatement
  | tryStatement => simp [ofKind, tryStatement, slotsOfKind, visits_catchClauses]
  | variableDeclaration => simp [ofKind, slotsOfKind, visits_variableDeclaration]
  | whileStatement => simp [ofKind, whileStatement, slotsOfKind, visits_loopBody]
  | withStatement => simp [ofKind, withStatement, slotsOfKind]
  | catchClause => simp [ofKind, catchClause, slotsOfKind]
  | switchCase =>
    simp [ofKind, switchCase, slotsOfKind,
      ← visits_behind (.list "consequent" .statement) [.switch] rfl]
  | variableDeclarator => simp [ofKind, variableDeclarator, slotsOfKind]

end Rule

/-- **A rule visits the slots of its node**, in their order and in their scopes. -/
theorem visits_rule (role : Role) (scope : Scope) (o : Occurrence) (kind : Kind) :
    Steps.visits (rule role scope o kind) =
      (Grammar.slots role o.value kind).flatMap fun s => s.visits scope o := by
  unfold rule
  rw [Steps.visits_append, Steps.visits_location, List.nil_append]
  cases role with
  | node => exact Rule.visits_ofKind kind
  | functionBody => simp [Rule.sourceElements, Grammar.slots]

/-- The slots at a visit.  A malformed value has none. -/
def Visit.slots (v : Visit) : List Slot :=
  match v.occurrence.value.kind? with
  | none => []
  | some kind => Grammar.slots v.role v.occurrence.value kind

theorem Visit.next_eq (v : Visit) :
    v.next = v.slots.flatMap fun s => s.visits v.scope v.occurrence := by
  unfold Visit.next Visit.steps Visit.slots
  cases v.occurrence.value.kind? with
  | none => rfl
  | some kind => exact visits_rule ..

theorem Visit.mem_next_iff {v w : Visit} :
    w ∈ v.next ↔ ∃ s ∈ v.slots, ∃ c ∈ s.occupants v.occurrence,
      w = ⟨s.role, s.scope v.scope, c⟩ := by
  simp only [next_eq, List.mem_flatMap, Slot.visits, List.mem_map, eq_comm]

namespace Tree

/-- What stands in a tree: the root, and what stands in the slots of a node that does. -/
inductive Stands (strict : Bool) (t : Tree) : Visit → Prop
  | root : Stands strict t (.root strict t)
  | slot {v : Visit} {kind : Kind} {s : Slot} {c : Occurrence} : Stands strict t v →
      v.occurrence.value.kind? = some kind → s ∈ Grammar.slots v.role v.occurrence.value kind →
      c ∈ s.occupants v.occurrence → Stands strict t ⟨s.role, s.scope v.scope, c⟩

/-- **A traversal visits what stands in the slots**, and nothing else. -/
theorem visits_iff_stands {strict : Bool} {t : Tree} {v : Visit} :
    t.Visits strict v ↔ t.Stands strict v := by
  constructor
  · intro h
    induction h with
    | refl => exact .root
    | @tail u w _ hw ih =>
      obtain ⟨s, hs, c, hc, rfl⟩ := Visit.mem_next_iff.1 hw
      unfold Visit.slots at hs
      cases hkind : u.occurrence.value.kind? with
      | none => rw [hkind] at hs; cases hs
      | some kind => rw [hkind] at hs; exact .slot ih hkind hs hc
  · intro h
    induction h with
    | root => exact .refl
    | @slot u kind s c _ hkind hs hc ih =>
      have hslots : s ∈ u.slots := by rwa [Visit.slots, hkind]
      exact ih.tail (Visit.mem_next_iff.2 ⟨s, hslots, c, hc, rfl⟩)

end Tree

end ScriptTree
