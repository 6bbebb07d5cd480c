/-
  Which faults a node may be charged with.

  * `Fault.mayCharge`: the kinds of nodes that a fault is about.  A fault of a field or of
    a location is about nodes of every kind.
  * `Steps.Charges`: steps that report only faults of nodes of one kind.  What the
    combinators report is a matter of every kind.
  * `charges_ofKind`, `Visit.mayCharge_of_mem_own`: the rule of a kind reports only faults
    of that kind.
-/
import ScriptTree.Proofs.Visit

namespace ScriptTree

/-- The kind of the nodes with an operator of a family. -/
def OperatorFamily.kind : OperatorFamily → Kind
  | .assignment => .assignmentExpression
  | .binary => .binaryExpression
  | .logical => .logicalExpression
  | .unary => .unaryExpression
  | .update => .updateExpression

/-- Whether a fault is about nodes of a kind.  A value that is no node has no kind. -/
def Fault.mayCharge (f : Fault) (kind : Kind) : Bool :=
  match f with
  | notNode _ | missingType | unknownType _ => false
  | invalidOperator family _ => kind == family.kind
  | invalidPrefixFlag => kind == .updateExpression
  | invalidName _ | reservedWord _ => kind == .identifier
  | invalidMemberName => kind == .memberExpression
  | missingLiteralValue | invalidLiteralValue _ | nanLiteral | negativeLiteral => kind == .literal
  | notProperty _ | invalidPropertyKind | invalidPropertyKey | getterParameters
  | setterParameters | conflictingProperty _ | duplicateProperty _ => kind == .objectExpression
  | breakOutside => kind == .breakStatement
  | continueOutside => kind == .continueStatement
  | returnOutside => kind == .returnStatement
  | unknownLabel _ => kind == .breakStatement || kind == .continueStatement
  | duplicateLabel _ => kind == .labeledStatement
  | danglingElse => kind == .ifStatement
  | repeatedDefault => kind == .switchStatement
  | bareTry => kind == .tryStatement
  | shortSequence => kind == .sequenceExpression
  | emptyDeclaration | invalidDeclarationKind => kind == .variableDeclaration
  | strictWith => kind == .withStatement
  | strictDelete => kind == .unaryExpression
  | duplicateParameter _ => kind == .functionExpression || kind == .functionDeclaration
  | restrictedName _ => [Kind.assignmentExpression, .updateExpression, .functionExpression,
    .functionDeclaration, .forInStatement, .catchClause, .variableDeclarator].contains kind
  | missingEndpoint _ | invalidLine _ | invalidColumn _ | missing _ | notArray _ | notString _
  | misplaced .. => true

/-- Whether a fault is about a source location. -/
def Fault.isLocation : Fault → Bool
  | missingEndpoint _ | invalidLine _ | invalidColumn _ => true
  | notString field => field = .named "loc.source"
  | _ => false

/-- Every node may have a location. -/
theorem Fault.mayCharge_of_isLocation {f : Fault} {kind : Kind} (h : f.isLocation = true) :
    f.mayCharge kind = true := by
  cases f with
  | missingEndpoint | invalidLine | invalidColumn | notString => rfl
  | _ => cases h

namespace Steps

theorem isLocation_of_mem_endpointFaults {location : Tree} {endpoint : Endpoint} :
    ∀ f ∈ endpointFaults location endpoint, f.isLocation = true := by
  have hunless : ∀ {test : Bool} {g : Fault}, g.isLocation = true →
      ∀ f ∈ (if test then [] else [g]), f.isLocation = true := by
    intro test g hg f hf
    cases test with
    | false => rw [List.mem_singleton.1 hf, hg]
    | true => cases hf
  intro f hf
  unfold endpointFaults at hf
  split at hf
  · rw [List.mem_singleton.1 hf]
    rfl
  · rcases List.mem_append.1 hf with hf | hf
    · exact hunless rfl f hf
    · exact hunless rfl f hf

theorem isLocation_of_mem_locationFaults {t : Tree} {f : Fault} (hf : f ∈ locationFaults t) :
    f.isLocation = true := by
  unfold locationFaults at hf
  split at hf
  · cases hf
  · simp only [List.mem_append] at hf
    rcases hf with (hf | hf) | hf
    · split at hf
      · cases hf
      · cases hf
      · rw [List.mem_singleton.1 hf]
        rfl
    · exact isLocation_of_mem_endpointFaults f hf
    · exact isLocation_of_mem_endpointFaults f hf

variable {kind : Kind} {o : Occurrence} {scope : Scope} {name : String} {category : Category}

/-- Steps that report only faults of nodes of a kind. -/
def Charges (kind : Kind) (steps : List Step) : Prop :=
  ∀ w ∈ reports steps, w.fault.mayCharge kind = true

@[simp] theorem charges_nil : Charges kind [] := fun _ h => nomatch h

@[simp] theorem charges_append {a b : List Step} :
    Charges kind (a ++ b) ↔ Charges kind a ∧ Charges kind b := by
  simp only [Charges, reports_append, List.forall_mem_append]

theorem charges_flatMap {α : Type} {l : List α} {f : α → List Step}
    (h : ∀ a ∈ l, Charges kind (f a)) : Charges kind (l.flatMap f) := by
  intro w hw
  rw [reports_flatMap, List.mem_flatMap] at hw
  obtain ⟨a, ha, hw⟩ := hw
  exact h a ha w hw

@[simp] theorem charges_visit {role : Role} {c : Occurrence} :
    Charges kind [.visit role scope c] := fun _ h => nomatch h

@[simp] theorem charges_fault {f : Fault} : Charges kind (fault o f) ↔ f.mayCharge kind = true := by
  simp [Charges]

theorem charges_faultIf {test : Bool} {f : Fault} (h : f.mayCharge kind = true) :
    Charges kind (faultIf test o f) := by
  cases test with
  | false => exact charges_nil
  | true => exact charges_fault.2 h

@[simp] theorem charges_location : Charges kind (location o) := by
  intro w hw
  rw [reports_location] at hw
  obtain ⟨f, hf, rfl⟩ := List.mem_map.1 hw
  exact Fault.mayCharge_of_isLocation (isLocation_of_mem_locationFaults hf)

@[simp] theorem charges_present {field : Field} {c : Occurrence} :
    Charges kind (present o field category scope c) := by
  refine charges_append.2 ⟨?_, charges_visit⟩
  split
  · exact charges_faultIf rfl
  · exact charges_nil

@[simp] theorem charges_required : Charges kind (required o name category scope) := by
  unfold required
  split
  · exact charges_present
  · exact charges_fault.2 rfl

@[simp] theorem charges_optional : Charges kind (optional o name category scope) := by
  unfold optional
  split
  · exact charges_present
  · exact charges_nil

@[simp] theorem charges_elements {holes : Bool} {values : List Tree} :
    Charges kind (elements o name category holes scope values) := by
  refine charges_flatMap fun (value, index) _ => ?_
  simp only [element]
  split
  · exact charges_faultIf rfl
  · exact charges_present

theorem charges_withList {steps : List Tree → List Step}
    (h : ∀ values, Charges kind (steps values)) : Charges kind (withList o name steps) := by
  unfold withList
  split
  · exact charges_fault.2 rfl
  · split
    · exact charges_fault.2 rfl
    · exact h _

@[simp] theorem charges_list : Charges kind (list o name category scope) :=
  charges_withList fun _ => charges_elements

theorem charges_operator (family : OperatorFamily) : Charges family.kind (operator o family) := by
  have hfault : ∀ found, (Fault.invalidOperator family found).mayCharge family.kind = true :=
    fun _ => beq_self_eq_true family.kind
  unfold operator
  split
  · exact charges_fault.2 (hfault _)
  · exact charges_faultIf (hfault _)
  · exact charges_fault.2 (hfault _)

theorem charges_binding {target : Option Tree}
    (h : ∀ name, (Fault.restrictedName name).mayCharge kind = true) :
    Charges kind (binding o scope target) := by
  unfold binding
  split
  · split
    · exact charges_faultIf (h _)
    · exact charges_nil
  · exact charges_nil

theorem charges_faults {faults : Option Fault}
    (h : ∀ f ∈ faults, f.mayCharge kind = true) :
    Charges kind (faults.toList.flatMap (fault o)) :=
  charges_flatMap fun f hf => charges_fault.2 (h f (Option.mem_toList.1 hf))

end Steps

namespace Rule

open Steps

variable {o : Occurrence} {scope : Scope}

theorem identifierFault_cases {strict : Bool} {name : Option Tree} {f : Fault}
    (hf : Identifier.fault? strict name = some f) :
    f = .missing (.named "name") ∨ (∃ word, f = .invalidName word) ∨
      (∃ word, f = .reservedWord word) ∨ f = .notString (.named "name") := by
  unfold Identifier.fault? at hf
  split at hf
  · exact Or.inl (Option.some.inj hf).symm
  · split at hf
    · exact Or.inr (Or.inl ⟨_, (Option.some.inj hf).symm⟩)
    · split at hf
      · exact Or.inr (Or.inr (Or.inl ⟨_, (Option.some.inj hf).symm⟩))
      · cases hf
  · exact Or.inr (Or.inr (Or.inr (Option.some.inj hf).symm))

theorem charges_identifier : Charges .identifier (identifier o scope) := by
  refine charges_faults fun f hf => ?_
  rcases identifierFault_cases hf with rfl | ⟨word, rfl⟩ | ⟨word, rfl⟩ | rfl
  all_goals rfl

theorem literalFault_cases {value : Option Tree} {f : Fault}
    (hf : Literal.fault? value = some f) :
    f = .missingLiteralValue ∨ (∃ found, f = .invalidLiteralValue found) ∨ f = .nanLiteral ∨
      f = .negativeLiteral := by
  unfold Literal.fault? Literal.numberFault? at hf
  split at hf
  · exact Or.inl (Option.some.inj hf).symm
  · split at hf
    · exact Or.inr (Or.inr (Or.inl (Option.some.inj hf).symm))
    · split at hf
      · exact Or.inr (Or.inr (Or.inr (Option.some.inj hf).symm))
      · cases hf
  · exact Or.inr (Or.inl ⟨_, (Option.some.inj hf).symm⟩)
  · exact Or.inr (Or.inl ⟨_, (Option.some.inj hf).symm⟩)
  all_goals cases hf

theorem charges_literal : Charges .literal (literal o) := by
  refine charges_faults fun f hf => ?_
  rcases literalFault_cases hf with rfl | ⟨found, rfl⟩ | rfl | rfl
  all_goals rfl

theorem seenFault_cases {seen : Seen} {strict : Bool} {kind : PropertyKind} {key : String}
    {f : Fault} (hf : seen.fault? strict kind key = some f) :
    f = .conflictingProperty key ∨ f = .duplicateProperty key := by
  unfold Seen.fault? at hf
  split at hf
  · exact Or.inl (Option.some.inj hf).symm
  · split at hf
    · exact Or.inr (Option.some.inj hf).symm
    · cases hf

theorem charges_seenFault {seen : Seen} {strict : Bool} {kind : PropertyKind} {key : String} :
    Charges .objectExpression ((seen.fault? strict kind key).toList.flatMap (fault o)) := by
  refine charges_faults fun f hf => ?_
  rcases seenFault_cases hf with rfl | rfl
  · rfl
  · rfl

theorem charges_labelUse {kind : Kind}
    (h : ∀ name, (Fault.unknownLabel name).mayCharge kind = true) :
    Charges kind (labelUse o scope) := by
  refine charges_append.2 ⟨charges_optional, ?_⟩
  split
  · exact charges_faultIf (h _)
  · exact charges_nil

theorem charges_memberExpression : Charges .memberExpression (memberExpression o scope) := by
  refine charges_append.2 ⟨charges_required, ?_⟩
  split
  · exact charges_required
  · unfold memberName
    split
    · exact charges_fault.2 rfl
    · exact charges_append.2 ⟨charges_faultIf rfl, charges_location⟩

theorem charges_property {p : Occurrence} {names : SeenNames} :
    Charges .objectExpression (property p scope names) := by
  have hkey : Charges .objectExpression (propertyKey p) := by
    unfold propertyKey
    split
    · exact charges_append.2 ⟨charges_faultIf rfl, charges_location⟩
    · exact charges_fault.2 rfl
  have haccessor : Charges .objectExpression (accessor p) := by
    unfold accessor
    split
    · exact charges_faultIf rfl
    · exact charges_faultIf rfl
    · exact charges_nil
  have hconflict : Charges .objectExpression (conflict p scope names) := by
    unfold conflict
    split
    · exact charges_seenFault
    · exact charges_nil
  simp only [property, charges_append]
  exact ⟨⟨⟨⟨⟨charges_location, charges_faultIf rfl⟩, hkey⟩, charges_required⟩, haccessor⟩,
    hconflict⟩

theorem charges_properties {values : List (Tree × Nat)} {names : SeenNames} :
    Charges .objectExpression (properties o scope names values) := by
  induction values generalizing names with
  | nil => exact charges_nil
  | cons p rest ih =>
    obtain ⟨value, index⟩ := p
    unfold properties
    split
    · exact charges_append.2 ⟨charges_property, ih⟩
    · exact charges_append.2 ⟨charges_fault.2 rfl, ih⟩

theorem charges_functionName (form : FunctionForm) {kind : Kind}
    (hbinding : ∀ name, (Fault.restrictedName name).mayCharge kind = true) :
    Charges kind (functionName form o scope) := by
  refine charges_append.2 ⟨?_, charges_binding hbinding⟩
  cases form with
  | declaration => exact charges_required
  | expression => exact charges_optional

theorem charges_functionBody {kind : Kind} {outer inner : Scope} :
    Charges kind (functionBody o outer inner) := by
  unfold functionBody
  split
  · exact charges_fault.2 rfl
  · split
    · exact charges_visit
    · exact charges_present

theorem charges_function (form : FunctionForm) {kind : Kind}
    (hbinding : ∀ name, (Fault.restrictedName name).mayCharge kind = true)
    (hparameter : ∀ name, (Fault.duplicateParameter name).mayCharge kind = true) :
    Charges kind (function form o scope) := by
  refine charges_append.2 ⟨charges_append.2 ⟨charges_functionName form hbinding, ?_⟩,
    charges_functionBody⟩
  refine charges_withList fun params => ?_
  refine charges_append.2 ⟨charges_append.2 ⟨charges_elements,
    charges_flatMap fun _ _ => charges_binding hbinding⟩, ?_⟩
  split
  · exact charges_flatMap fun name _ => charges_fault.2 (hparameter name)
  · exact charges_nil

theorem charges_labeledStatement : Charges .labeledStatement (labeledStatement o scope) := by
  refine charges_append.2 ⟨charges_required, ?_⟩
  split
  · exact charges_append.2 ⟨charges_faultIf rfl, charges_required⟩
  · exact charges_required

theorem charges_updateExpression : Charges .updateExpression (updateExpression o scope) := by
  refine charges_append.2 ⟨charges_append.2 ⟨charges_append.2 ⟨charges_operator .update,
    charges_required⟩, charges_binding fun _ => rfl⟩, ?_⟩
  split
  · exact charges_nil
  · exact charges_nil
  · exact charges_fault.2 rfl

theorem charges_catchClauses {kind : Kind} : Charges kind (catchClauses o scope) := by
  unfold catchClauses
  split
  · split
    · exact charges_elements
    · exact charges_fault.2 rfl
  · exact charges_optional

/-- **The rule of a kind reports only faults of that kind.** -/
theorem charges_ofKind (kind : Kind) : Charges kind (ofKind kind o scope) := by
  cases kind with
  | program => exact charges_withList fun _ => charges_elements
  | arrayExpression => exact charges_withList fun _ => charges_elements
  | assignmentExpression =>
    simp only [ofKind, assignmentExpression, operation, charges_append, charges_required, and_true]
    exact ⟨charges_operator .assignment, charges_binding fun _ => rfl⟩
  | binaryExpression =>
    simp only [ofKind, operation, charges_append, charges_required, and_true]
    exact charges_operator .binary
  | logicalExpression =>
    simp only [ofKind, operation, charges_append, charges_required, and_true]
    exact charges_operator .logical
  | functionExpression | functionDeclaration =>
    exact charges_function _ (fun _ => rfl) (fun _ => rfl)
  | identifier => exact charges_identifier
  | literal => exact charges_literal
  | memberExpression => exact charges_memberExpression
  | objectExpression => exact charges_withList fun _ => charges_properties
  | sequenceExpression =>
    exact charges_withList fun _ => charges_append.2 ⟨charges_faultIf rfl, charges_elements⟩
  | unaryExpression =>
    simp only [ofKind, unaryExpression, charges_append, charges_required, and_true]
    exact ⟨charges_operator .unary, charges_faultIf rfl⟩
  | updateExpression => exact charges_updateExpression
  | breakStatement | continueStatement =>
    exact charges_append.2 ⟨charges_faultIf rfl, charges_labelUse fun _ => rfl⟩
  | forInStatement =>
    simp only [ofKind, forInStatement, loopBody, charges_append, charges_required, and_true,
      true_and]
    exact charges_binding fun _ => rfl
  | ifStatement =>
    simp only [ofKind, ifStatement, charges_append, charges_required, charges_optional, true_and]
    exact charges_faultIf rfl
  | labeledStatement => exact charges_labeledStatement
  | returnStatement => exact charges_append.2 ⟨charges_faultIf rfl, charges_optional⟩
  | switchStatement =>
    refine charges_append.2 ⟨charges_required, charges_withList fun _ => ?_⟩
    exact charges_append.2 ⟨charges_elements, charges_flatMap fun _ _ => charges_fault.2 rfl⟩
  | tryStatement =>
    simp only [ofKind, tryStatement, charges_append, charges_required, charges_optional,
      charges_catchClauses, true_and]
    exact charges_faultIf rfl
  | variableDeclaration =>
    refine charges_append.2 ⟨charges_faultIf rfl, charges_withList fun _ => ?_⟩
    exact charges_append.2 ⟨charges_elements, charges_faultIf rfl⟩
  | withStatement =>
    simp only [ofKind, withStatement, charges_append, charges_required, and_true]
    exact charges_faultIf rfl
  | catchClause =>
    simp only [ofKind, catchClause, charges_append, charges_required, and_true, true_and]
    exact charges_binding fun _ => rfl
  | variableDeclarator =>
    simp only [ofKind, variableDeclarator, charges_append, charges_required, charges_optional,
      and_true, true_and]
    exact charges_binding fun _ => rfl
  | thisExpression | debuggerStatement | emptyStatement => exact charges_nil
  | callExpression | newExpression | conditionalExpression | blockStatement | doWhileStatement
  | expressionStatement | forStatement | throwStatement | whileStatement | switchCase =>
    simp [ofKind, callExpression, conditionalExpression, blockStatement, doWhileStatement,
      forStatement, whileStatement, switchCase, loopBody]

end Rule

/-- **What is reported at a node is about its kind.** -/
theorem Visit.mayCharge_of_mem_own {v : Visit} {kind : Kind} {w : Violation}
    (hkind : v.occurrence.value.kind? = some kind) (h : w ∈ v.own) :
    w.fault.mayCharge kind = true := by
  have hcharges : Steps.Charges kind v.steps := by
    rw [steps_of_kind hkind]
    refine Steps.charges_append.2 ⟨Steps.charges_location, ?_⟩
    cases v.role with
    | node => exact Rule.charges_ofKind kind
    | functionBody => exact Steps.charges_list
  rw [own_of_kind hkind] at h
  exact hcharges w h

end ScriptTree
