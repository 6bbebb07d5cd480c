/-
  A value at another place.

  * `Relocation`: the way of a value to another place, which may lie in a function.
  * `filterMap_rule`: the steps of a rule are the same at the new place, except that a
    return statement there is in a function.
  * `violations_relocated`: the violations of a value at the new place are those at the old
    one, moved along, without those of return statements.
-/
import Mathlib.Data.List.Basic
import ScriptTree.Proofs.Tally

namespace ScriptTree

/-- The way of a value to another place. -/
structure Relocation where
  /-- The steps from the new root to the old one, the last one first. -/
  base : List Selector
  /-- Whether the new place lies in a function. -/
  intoFunction : Bool

namespace Relocation

variable {m : Relocation}

/-- An occurrence at its new place. -/
def occurrence (m : Relocation) (o : Occurrence) : Occurrence := ⟨o.trail ++ m.base, o.value⟩

/-- A scope at the new place. -/
def scope (m : Relocation) (s : Scope) : Scope :=
  { s with inFunction := m.intoFunction || s.inFunction }

/-- Whether a fault remains one at the new place. -/
def keeps (m : Relocation) (f : Fault) : Bool := !(m.intoFunction && f = .returnOutside)

/-- A violation at the new place. -/
def violation? (m : Relocation) (w : Violation) : Option Violation :=
  if m.keeps w.fault then some ⟨m.occurrence w.owner, w.fault⟩ else none

/-- A step at the new place. -/
def step? (m : Relocation) : Step → Option Step
  | .report w => (m.violation? w).map .report
  | .visit role scope c => some (.visit role (m.scope scope) (m.occurrence c))

/-! ## Occurrences and scopes -/

@[simp] theorem value_occurrence {o : Occurrence} : (m.occurrence o).value = o.value := rfl

@[simp] theorem child?_occurrence {o : Occurrence} {name : String} :
    (m.occurrence o).child? name = (o.child? name).map m.occurrence := by
  simp [Occurrence.child?, occurrence, Function.comp_def]

@[simp] theorem element_occurrence {o : Occurrence} {name : String} {index : Nat} {value : Tree} :
    (m.occurrence o).element name index value = m.occurrence (o.element name index value) := rfl

@[simp] theorem scope_enter {s : Scope} {move : Scope.Move} :
    m.scope (s.enter move) = (m.scope s).enter move := by
  cases move <;> simp [scope, Scope.enter]

@[simp] theorem strict_scope {s : Scope} : (m.scope s).strict = s.strict := rfl

@[simp] theorem inIteration_scope {s : Scope} : (m.scope s).inIteration = s.inIteration := rfl

@[simp] theorem breakable_scope {s : Scope} : (m.scope s).breakable = s.breakable := rfl

@[simp] theorem hasLabel_scope {s : Scope} {name : String} :
    (m.scope s).hasLabel name = s.hasLabel name := rfl

@[simp] theorem functionScope_scope {function : Tree} {s : Scope} :
    m.scope (Rule.functionScope function s) = Rule.functionScope function (m.scope s) := by
  unfold Rule.functionScope Rule.isStrictFunction
  rw [strict_scope]
  split
  · exact scope_enter
  · rfl

theorem keeps_of_ne {f : Fault} (h : f ≠ .returnOutside) : m.keeps f = true := by
  simp [keeps, h]

/-- A fault that is about nodes of some other kind too is not that of a return statement. -/
theorem ne_returnOutside {f : Fault} {kind : Kind} (h : f.mayCharge kind = true)
    (hkind : kind ≠ .returnStatement) : f ≠ .returnOutside := by
  rintro rfl
  exact hkind (eq_of_beq h)

end Relocation

/-! ## The steps of the combinators -/

namespace Steps

variable {m : Relocation} {o : Occurrence} {scope : Scope} {name : String} {category : Category}

theorem filterMap_flatMap_step {α : Type} (l : List α) (f : α → List Step) :
    (l.flatMap f).filterMap m.step? = l.flatMap fun a => (f a).filterMap m.step? := by
  induction l with
  | nil => rfl
  | cons a l ih => rw [List.flatMap_cons, List.filterMap_append, ih, List.flatMap_cons]

@[simp] theorem filterMap_fault {f : Fault} (h : f ≠ .returnOutside) :
    (fault o f).filterMap m.step? = fault (m.occurrence o) f := by
  simp [fault, Relocation.step?, Relocation.violation?, Relocation.keeps_of_ne h]

@[simp] theorem filterMap_faultIf {test : Bool} {f : Fault} (h : f ≠ .returnOutside) :
    (faultIf test o f).filterMap m.step? = faultIf test (m.occurrence o) f := by
  cases test with
  | false => rfl
  | true => exact filterMap_fault h

/-- In a function no return statement is outside of one. -/
@[simp] theorem filterMap_returnOutside :
    (faultIf (!scope.inFunction) o .returnOutside).filterMap m.step? =
      faultIf (!(m.scope scope).inFunction) (m.occurrence o) .returnOutside := by
  cases hinto : m.intoFunction <;> cases hin : scope.inFunction <;>
    simp [Relocation.scope, hinto, hin, faultIf, fault, Relocation.step?, Relocation.violation?,
      Relocation.keeps]

theorem filterMap_faults {faults : Option Fault} {kind : Kind}
    (h : Charges kind (faults.toList.flatMap (fault o))) (hkind : kind ≠ .returnStatement) :
    (faults.toList.flatMap (fault o)).filterMap m.step? =
      faults.toList.flatMap (fault (m.occurrence o)) := by
  cases faults with
  | none => rfl
  | some f =>
    have hf : f.mayCharge kind = true := h ⟨o, f⟩ (List.mem_singleton_self _)
    exact filterMap_fault (Relocation.ne_returnOutside hf hkind)

@[simp] theorem filterMap_location :
    (location o).filterMap m.step? = location (m.occurrence o) := by
  rw [location, location, Relocation.value_occurrence, List.filterMap_map,
    ← List.filterMap_eq_map]
  refine List.filterMap_congr fun f hf => ?_
  have hmay : f.mayCharge .program = true :=
    Fault.mayCharge_of_isLocation (isLocation_of_mem_locationFaults hf)
  have hkeeps := Relocation.keeps_of_ne (m := m) (Relocation.ne_returnOutside hmay (by decide))
  simp [Relocation.step?, Relocation.violation?, hkeeps]

@[simp] theorem filterMap_present {field : Field} {c : Occurrence} :
    (present o field category scope c).filterMap m.step? =
      present (m.occurrence o) field category (m.scope scope) (m.occurrence c) := by
  simp only [present, List.filterMap_append, Relocation.value_occurrence]
  refine congrArg (· ++ _) ?_
  split
  · exact filterMap_faultIf nofun
  · rfl

@[simp] theorem filterMap_required :
    (required o name category scope).filterMap m.step? =
      required (m.occurrence o) name category (m.scope scope) := by
  unfold required
  rw [Relocation.child?_occurrence]
  cases o.child? name <;> simp

@[simp] theorem filterMap_optional :
    (optional o name category scope).filterMap m.step? =
      optional (m.occurrence o) name category (m.scope scope) := by
  unfold optional
  rw [Relocation.child?_occurrence]
  cases o.child? name <;> simp

@[simp] theorem filterMap_elements {holes : Bool} {values : List Tree} :
    (elements o name category holes scope values).filterMap m.step? =
      elements (m.occurrence o) name category holes (m.scope scope) values := by
  rw [elements, elements, filterMap_flatMap_step]
  refine congrArg (List.flatMap · _) (funext ?_)
  rintro ⟨value, index⟩
  cases value <;> simp [element]

theorem filterMap_withList {f g : List Tree → List Step}
    (h : ∀ values, (f values).filterMap m.step? = g values) :
    (withList o name f).filterMap m.step? = withList (m.occurrence o) name g := by
  unfold withList
  rw [Relocation.value_occurrence]
  split
  · exact filterMap_fault nofun
  · split
    · exact filterMap_fault nofun
    · exact h _

@[simp] theorem filterMap_list :
    (list o name category scope).filterMap m.step? =
      list (m.occurrence o) name category (m.scope scope) :=
  filterMap_withList fun _ => filterMap_elements

@[simp] theorem filterMap_operator {family : OperatorFamily} :
    (operator o family).filterMap m.step? = operator (m.occurrence o) family := by
  unfold operator
  rw [Relocation.value_occurrence]
  split <;> simp

@[simp] theorem filterMap_binding {target : Option Tree} :
    (binding o scope target).filterMap m.step? =
      binding (m.occurrence o) (m.scope scope) target := by
  unfold binding
  rw [Relocation.strict_scope]
  split
  · split <;> simp
  · rfl

end Steps

/-! ## The steps of the rules -/

namespace Rule

open Steps

variable {m : Relocation} {o : Occurrence} {scope : Scope}

theorem filterMap_program :
    (program o scope).filterMap m.step? = program (m.occurrence o) (m.scope scope) := by
  refine filterMap_withList fun body => ?_
  rw [filterMap_elements]
  split
  · rw [Relocation.scope_enter]
  · rfl

theorem filterMap_identifier :
    (identifier o scope).filterMap m.step? = identifier (m.occurrence o) (m.scope scope) :=
  filterMap_faults (charges_identifier : Charges .identifier (identifier o scope)) nofun

theorem filterMap_literal : (literal o).filterMap m.step? = literal (m.occurrence o) :=
  filterMap_faults charges_literal nofun

theorem filterMap_memberExpression :
    (memberExpression o scope).filterMap m.step? =
      memberExpression (m.occurrence o) (m.scope scope) := by
  have hname : (memberName o).filterMap m.step? = memberName (m.occurrence o) := by
    unfold memberName
    rw [Relocation.child?_occurrence]
    cases o.child? "property" <;> simp
  unfold memberExpression
  rw [List.filterMap_append, filterMap_required, Relocation.value_occurrence]
  split
  · rw [filterMap_required]
  · rw [hname]

theorem filterMap_updateExpression :
    (updateExpression o scope).filterMap m.step? =
      updateExpression (m.occurrence o) (m.scope scope) := by
  unfold updateExpression
  rw [Relocation.value_occurrence]
  split <;> simp

/-! ### Functions -/

theorem filterMap_parameters :
    (parameters o scope).filterMap m.step? = parameters (m.occurrence o) (m.scope scope) := by
  refine filterMap_withList fun params => ?_
  rw [Relocation.strict_scope]
  split <;> simp [filterMap_flatMap_step]

theorem filterMap_functionBody {outer inner : Scope} :
    (functionBody o outer inner).filterMap m.step? =
      functionBody (m.occurrence o) (m.scope outer) (m.scope inner) := by
  unfold functionBody
  rw [Relocation.child?_occurrence]
  cases o.child? "body" with
  | none => simp
  | some body =>
    by_cases hblock : body.value.kind? = some .blockStatement
    · simp [hblock, Relocation.step?]
    · simp [hblock]

theorem filterMap_function (form : FunctionForm) :
    (function form o scope).filterMap m.step? =
      function form (m.occurrence o) (m.scope scope) := by
  simp only [function, List.filterMap_append, filterMap_parameters, filterMap_functionBody,
    Relocation.scope_enter, Relocation.functionScope_scope, Relocation.value_occurrence]
  cases form <;> simp [functionName]

/-! ### Properties -/

theorem filterMap_property {p : Occurrence} {names : SeenNames} :
    (property p scope names).filterMap m.step? =
      property (m.occurrence p) (m.scope scope) names := by
  have hkey : (propertyKey p).filterMap m.step? = propertyKey (m.occurrence p) := by
    unfold propertyKey
    rw [Relocation.child?_occurrence]
    cases p.child? "key" <;> simp
  have haccessor : (accessor p).filterMap m.step? = accessor (m.occurrence p) := by
    unfold accessor
    rw [Relocation.value_occurrence]
    split <;> simp
  have hconflict : (conflict p scope names).filterMap m.step? =
      conflict (m.occurrence p) (m.scope scope) names := by
    unfold conflict
    rw [Relocation.value_occurrence]
    split
    · exact filterMap_faults charges_seenFault nofun
    · rfl
  simp [property, hkey, haccessor, hconflict]

theorem filterMap_properties {values : List (Tree × Nat)} {names : SeenNames} :
    (properties o scope names values).filterMap m.step? =
      properties (m.occurrence o) (m.scope scope) names values := by
  induction values generalizing names with
  | nil => rfl
  | cons p rest ih =>
    obtain ⟨value, index⟩ := p
    unfold properties
    split
    · simp [filterMap_property, ih]
    · simp [ih]

/-! ### Statements -/

theorem filterMap_labelUse :
    (labelUse o scope).filterMap m.step? = labelUse (m.occurrence o) (m.scope scope) := by
  unfold labelUse
  rw [Relocation.value_occurrence]
  split <;> simp

theorem filterMap_labeledStatement :
    (labeledStatement o scope).filterMap m.step? =
      labeledStatement (m.occurrence o) (m.scope scope) := by
  unfold labeledStatement
  rw [Relocation.value_occurrence]
  split <;> simp

theorem filterMap_switchStatement :
    (switchStatement o scope).filterMap m.step? =
      switchStatement (m.occurrence o) (m.scope scope) := by
  unfold switchStatement
  rw [List.filterMap_append, filterMap_required, filterMap_withList fun cases => ?_]
  simp [switchCases, filterMap_flatMap_step]

theorem filterMap_catchClauses :
    (catchClauses o scope).filterMap m.step? = catchClauses (m.occurrence o) (m.scope scope) := by
  unfold catchClauses
  rw [Relocation.value_occurrence]
  split
  · split <;> simp
  · exact filterMap_optional

/-- One case for each kind: the steps of a rule are the same at another place. -/
theorem filterMap_ofKind (kind : Kind) :
    (ofKind kind o scope).filterMap m.step? =
      ofKind kind (m.occurrence o) (m.scope scope) := by
  cases kind with
  | program => exact filterMap_program
  | arrayExpression => exact filterMap_withList fun _ => filterMap_elements
  | functionExpression | functionDeclaration => exact filterMap_function _
  | identifier => exact filterMap_identifier
  | literal => exact filterMap_literal
  | memberExpression => exact filterMap_memberExpression
  | objectExpression => exact filterMap_withList fun _ => filterMap_properties
  | sequenceExpression => exact filterMap_withList fun _ => by simp
  | updateExpression => exact filterMap_updateExpression
  | labeledStatement => exact filterMap_labeledStatement
  | returnStatement =>
    simp only [ofKind, returnStatement, List.filterMap_append, filterMap_returnOutside,
      filterMap_optional]
  | switchStatement => exact filterMap_switchStatement
  | variableDeclaration =>
    simp only [ofKind, variableDeclaration, List.filterMap_append]
    exact congrArg₂ (· ++ ·) (filterMap_faultIf (by simp)) (filterMap_withList fun _ => by simp)
  | thisExpression | debuggerStatement | emptyStatement => rfl
  | breakStatement | continueStatement =>
    simp [ofKind, breakStatement, continueStatement, filterMap_labelUse]
  | tryStatement => simp [ofKind, tryStatement, filterMap_catchClauses]
  | assignmentExpression | binaryExpression | logicalExpression | callExpression | newExpression
  | conditionalExpression | unaryExpression | blockStatement | doWhileStatement
  | expressionStatement | forInStatement | forStatement | ifStatement | throwStatement
  | whileStatement | withStatement | catchClause | switchCase | variableDeclarator =>
    simp [ofKind, assignmentExpression, operation, callExpression, conditionalExpression,
      unaryExpression, blockStatement, doWhileStatement, forInStatement, forStatement, ifStatement,
      whileStatement, withStatement, catchClause, switchCase, variableDeclarator, loopBody]

end Rule

theorem filterMap_rule (m : Relocation) (role : Role) (scope : Scope) (o : Occurrence)
    (kind : Kind) :
    (rule role scope o kind).filterMap m.step? =
      rule role (m.scope scope) (m.occurrence o) kind := by
  cases role with
  | node => simp [rule, Rule.filterMap_ofKind]
  | functionBody => simp [rule, Rule.sourceElements]

/-! ## The violations -/

/-- If the values that some steps visit have the same violations at another place, so have
    the steps. -/
theorem Steps.violations_filterMap {m : Relocation} {steps : List Step}
    (hvisit : ∀ role scope c, Step.visit role scope c ∈ steps →
      violations role (m.scope scope) (m.occurrence c) =
        (violations role scope c).filterMap m.violation?) :
    (steps.filterMap m.step?).flatMap Step.violations =
      (steps.flatMap Step.violations).filterMap m.violation? := by
  induction steps with
  | nil => rfl
  | cons step rest ih =>
    have hrest := ih fun role scope c hc => hvisit role scope c (List.mem_cons_of_mem _ hc)
    rw [List.flatMap_cons, List.filterMap_append, ← hrest]
    cases step with
    | report w =>
      cases hw : m.violation? w <;> simp [Relocation.step?, hw, Step.violations]
    | visit role scope c =>
      have hc := hvisit role scope c List.mem_cons_self
      simp [Relocation.step?, hc, Step.violations]

/-- **A value has the same violations at another place**, moved along, except that in a
    function a return statement is none. -/
theorem violations_relocated (m : Relocation) (role : Role) (scope : Scope) (o : Occurrence) :
    violations role (m.scope scope) (m.occurrence o) =
      (violations role scope o).filterMap m.violation? := by
  induction hn : sizeOf o.value using Nat.strongRecOn generalizing role scope o with
  | ind n ih =>
    subst hn
    rw [violations_eq, violations_eq, Relocation.value_occurrence]
    split
    · next fault hfault =>
      have hkeeps : m.keeps fault = true := Relocation.keeps_of_ne fun h =>
        absurd (Tree.not_mayCharge_of_nodeKind hfault .returnStatement) (by rw [h]; decide)
      simp [Relocation.violation?, hkeeps]
    · next kind _ =>
      rw [← filterMap_rule]
      exact Steps.violations_filterMap fun role' scope' c hc =>
        ih _ (within_rule _ hc) role' scope' c rfl

/-! ## Lists at another owner -/

/-- An element that is no hole is a child. -/
theorem Steps.element_of_ne_null {o : Occurrence} {name : String} {category : Category}
    {scope : Scope} {value : Tree} {index : Nat} (holes : Bool) (h : value ≠ .null) :
    Steps.element o name category holes scope value index =
      Steps.present o (.element name index) category scope (o.element name index value) := by
  cases value with
  | null => exact absurd rfl h
  | _ => rfl

section
variable {o o' : Occurrence} {name : String} {category : Category} {s s' : Scope}
  {g : Violation → Option Violation} {offset : Nat}
  (hmissing : ∀ index, g ⟨o, .missing (.element name index)⟩ =
    some ⟨o', .missing (.element name (index + offset))⟩)
  (hmisplaced : ∀ index kind, g ⟨o, .misplaced (.element name index) category kind⟩ =
    some ⟨o', .misplaced (.element name (index + offset)) category kind⟩)
  (hvisit : ∀ index value, violations .node s' (o'.element name (index + offset) value) =
    (violations .node s (o.element name index value)).filterMap g)
include hmissing hmisplaced hvisit

/-- An element of a list that goes to another owner, where it may stand behind others. -/
theorem violations_element (value : Tree) (index : Nat) :
    (Steps.element o' name category false s' value (index + offset)).flatMap Step.violations =
      ((Steps.element o name category false s value index).flatMap
        Step.violations).filterMap g := by
  by_cases hnull : value = .null
  · subst hnull
    simp [Steps.element, Steps.faultIf, Steps.fault, Step.violations, hmissing]
  · rw [Steps.element_of_ne_null _ hnull, Steps.element_of_ne_null _ hnull]
    simp only [Steps.present, List.flatMap_append, List.filterMap_append]
    refine congrArg₂ (· ++ ·) ?_ (by simp [Step.violations, hvisit])
    simp only [Occurrence.element]
    split
    · next kind _ =>
      cases hcategory : category.contains kind <;>
        simp [Steps.faultIf, Steps.fault, Step.violations, hmisplaced]
    · rfl

/-- A list that goes to another owner, where it may stand behind other elements: what holds
    for the faults of the owner and for each element by itself holds for the list. -/
theorem violations_elements (values : List Tree) (start : Nat) :
    ((values.zipIdx (start + offset)).flatMap fun (value, index) =>
        Steps.element o' name category false s' value index).flatMap Step.violations =
      (((values.zipIdx start).flatMap fun (value, index) =>
        Steps.element o name category false s value index).flatMap
          Step.violations).filterMap g := by
  induction values generalizing start with
  | nil => rfl
  | cons value rest ih =>
    have hrest := ih (start + 1)
    rw [Nat.add_right_comm] at hrest
    simp only [List.zipIdx_cons, List.flatMap_cons, List.flatMap_append, List.filterMap_append,
      violations_element hmissing hmisplaced hvisit, hrest]

end

end ScriptTree
