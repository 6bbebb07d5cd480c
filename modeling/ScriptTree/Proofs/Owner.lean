/-
  Who is charged with the violations of a rule.

  A rule charges the node that it is about.  Only two kinds of nodes check values that
  are no nodes of their own: an object literal checks its properties and their keys, and
  a member checks the name behind its dot.

  * `Steps.Owned`: the violations that some steps report have owners of a certain sort;
    every combinator charges the occurrence it is given.
  * `Rule.Attached`: the values that a rule checks along with its node.
  * `owner_of_mem_own`: who is charged at a visit.
-/
import ScriptTree.Proofs.Grammar

namespace ScriptTree

namespace Steps

variable {P : Occurrence → Prop} {o : Occurrence}

/-- The owners of what some steps report satisfy a condition. -/
def Owned (P : Occurrence → Prop) (steps : List Step) : Prop :=
  ∀ w ∈ reports steps, P w.owner

@[simp] theorem owned_nil : Owned P [] := fun _ h => nomatch h

@[simp] theorem owned_append {a b : List Step} :
    Owned P (a ++ b) ↔ Owned P a ∧ Owned P b := by
  simp only [Owned, reports_append, List.forall_mem_append]

theorem owned_flatMap {α : Type} {l : List α} {f : α → List Step} (h : ∀ a ∈ l, Owned P (f a)) :
    Owned P (l.flatMap f) := by
  intro w hw
  rw [reports_flatMap, List.mem_flatMap] at hw
  obtain ⟨a, ha, hw⟩ := hw
  exact h a ha w hw

theorem owned_visit {role : Role} {scope : Scope} {c : Occurrence} :
    Owned P [.visit role scope c] := fun _ h => nomatch h

/-- Only an object has a location that may be wrong. -/
theorem owned_location (ho : o.value.isObject = true → P o) : Owned P (location o) := by
  intro w hw
  rw [reports_location, List.mem_map] at hw
  obtain ⟨f, hf, rfl⟩ := hw
  unfold locationFaults at hf
  split at hf
  · cases hf
  · next hloc => exact ho (Tree.isObject_of_get? (Tree.child?_eq_some_iff.1 hloc).1)

section
variable (ho : P o)
include ho

theorem owned_fault (f : Fault) : Owned P (fault o f) := by
  intro w hw
  rw [reports_fault, List.mem_singleton] at hw
  exact hw ▸ ho

theorem owned_faultIf (test : Bool) (f : Fault) : Owned P (faultIf test o f) := by
  unfold faultIf
  split
  · exact owned_fault ho f
  · exact owned_nil

theorem owned_faults (faults : Option Fault) : Owned P (faults.toList.flatMap (fault o)) :=
  owned_flatMap fun f _ => owned_fault ho f

variable (name : String) (category : Category) (scope : Scope)

theorem owned_present (field : Field) (c : Occurrence) :
    Owned P (present o field category scope c) := by
  refine owned_append.2 ⟨?_, owned_visit⟩
  split
  · exact owned_faultIf ho _ _
  · exact owned_nil

theorem owned_required : Owned P (required o name category scope) := by
  unfold required
  split
  · exact owned_present ho _ _ _ _
  · exact owned_fault ho _

theorem owned_optional : Owned P (optional o name category scope) := by
  unfold optional
  split
  · exact owned_present ho _ _ _ _
  · exact owned_nil

theorem owned_elements (holes : Bool) (values : List Tree) :
    Owned P (elements o name category holes scope values) := by
  refine owned_flatMap fun (value, index) _ => ?_
  simp only [element]
  split
  · exact owned_faultIf ho _ _
  · exact owned_present ho _ _ _ _

theorem owned_withList {steps : List Tree → List Step}
    (h : ∀ list values, o.value.child? name = some list → list.elements? = some values →
      Owned P (steps values)) : Owned P (withList o name steps) := by
  unfold withList
  split
  · exact owned_fault ho _
  · next list hlist =>
    split
    · exact owned_fault ho _
    · next values hvalues => exact h list values hlist hvalues

theorem owned_list : Owned P (list o name category scope) :=
  owned_withList ho _ fun _ _ _ _ => owned_elements ho _ _ _ _ _

theorem owned_operator (family : OperatorFamily) : Owned P (operator o family) := by
  unfold operator
  split
  · exact owned_fault ho _
  · exact owned_faultIf ho _ _
  · exact owned_fault ho _

theorem owned_binding (target : Option Tree) : Owned P (binding o scope target) := by
  unfold binding
  split
  · split
    · exact owned_faultIf ho _ _
    · exact owned_nil
  · exact owned_nil

end

end Steps

/-! ## The rules -/

namespace Rule

open Steps

/-- The values that the rule of a node checks, though they are no nodes of their own. -/
inductive Attached (o : Occurrence) : Kind → Occurrence → Prop
  | property {value index} : (value, index) ∈ o.value.indexed "properties" →
      Attached o .objectExpression (o.element "properties" index value)
  | key {value index c} : (value, index) ∈ o.value.indexed "properties" →
      (o.element "properties" index value).child? "key" = some c → Attached o .objectExpression c
  | memberName {c} : isComputed o.value = false → o.child? "property" = some c →
      Attached o .memberExpression c

/-- Only the rules of two kinds check more than their node. -/
theorem Attached.kind_eq {o p : Occurrence} {kind : Kind} (h : Attached o kind p) :
    kind = .objectExpression ∨ kind = .memberExpression := by
  cases h with
  | property | key => exact Or.inl rfl
  | memberName => exact Or.inr rfl

variable {P : Occurrence → Prop} {o : Occurrence} {scope : Scope}

theorem owned_property {p : Occurrence} {names : SeenNames} (hp : P p)
    (hkey : ∀ c, p.child? "key" = some c → c.value.isObject = true → P c) :
    Owned P (property p scope names) := by
  have hkeySteps : Owned P (propertyKey p) := by
    unfold propertyKey
    split
    · next c hc => exact owned_append.2 ⟨owned_faultIf hp _ _, owned_location (hkey c hc)⟩
    · exact owned_fault hp _
  have haccessor : Owned P (accessor p) := by
    unfold accessor
    split
    · exact owned_faultIf hp _ _
    · exact owned_faultIf hp _ _
    · exact owned_nil
  have hconflict : Owned P (conflict p scope names) := by
    unfold conflict
    split
    · exact owned_faults hp _
    · exact owned_nil
  simp only [property, owned_append]
  exact ⟨⟨⟨⟨⟨owned_location fun _ => hp, owned_faultIf hp _ _⟩, hkeySteps⟩,
    owned_required hp _ _ _⟩, haccessor⟩, hconflict⟩

theorem owned_properties (ho : P o) {values : List (Tree × Nat)}
    (hproperty : ∀ value index, (value, index) ∈ values → value.isObject = true →
      P (o.element "properties" index value))
    (hkey : ∀ value index, (value, index) ∈ values →
      ∀ c, (o.element "properties" index value).child? "key" = some c →
        c.value.isObject = true → P c) :
    ∀ names : SeenNames, Owned P (properties o scope names values) := by
  induction values with
  | nil => exact fun _ => owned_nil
  | cons p rest ih =>
    obtain ⟨value, index⟩ := p
    intro names
    have hrest := ih (fun value index h => hproperty value index (List.mem_cons_of_mem _ h))
      (fun value index h => hkey value index (List.mem_cons_of_mem _ h))
    unfold properties
    split
    · next hobject =>
      exact owned_append.2 ⟨owned_property (hproperty value index List.mem_cons_self hobject)
        (hkey value index List.mem_cons_self), hrest _⟩
    · exact owned_append.2 ⟨owned_fault ho _, hrest _⟩

theorem owned_memberExpression (ho : P o)
    (hname : isComputed o.value = false → ∀ c, o.child? "property" = some c →
      c.value.isObject = true → P c) :
    Owned P (memberExpression o scope) := by
  refine owned_append.2 ⟨owned_required ho _ _ _, ?_⟩
  split
  · exact owned_required ho _ _ _
  · next hcomputed =>
    unfold memberName
    split
    · exact owned_fault ho _
    · next c hc =>
      exact owned_append.2 ⟨owned_faultIf ho _ _,
        owned_location (hname (Bool.not_eq_true _ ▸ hcomputed) c hc)⟩

theorem owned_labelUse (ho : P o) : Owned P (labelUse o scope) := by
  refine owned_append.2 ⟨owned_optional ho _ _ _, ?_⟩
  split
  · exact owned_faultIf ho _ _
  · exact owned_nil

theorem owned_labeledStatement (ho : P o) : Owned P (labeledStatement o scope) := by
  refine owned_append.2 ⟨owned_required ho _ _ _, ?_⟩
  split
  · exact owned_append.2 ⟨owned_faultIf ho _ _, owned_required ho _ _ _⟩
  · exact owned_required ho _ _ _

theorem owned_function (form : FunctionForm) (ho : P o) : Owned P (function form o scope) := by
  refine owned_append.2 ⟨owned_append.2 ⟨?_, ?_⟩, ?_⟩
  · cases form with
    | declaration => exact owned_append.2 ⟨owned_required ho _ _ _, owned_binding ho _ _⟩
    | expression => exact owned_append.2 ⟨owned_optional ho _ _ _, owned_binding ho _ _⟩
  · refine owned_withList ho _ fun _ params _ _ => ?_
    refine owned_append.2 ⟨owned_append.2 ⟨owned_elements ho _ _ _ _ _,
      owned_flatMap fun _ _ => owned_binding ho _ _⟩, ?_⟩
    split
    · exact owned_flatMap fun _ _ => owned_fault ho _
    · exact owned_nil
  · unfold functionBody
    split
    · exact owned_fault ho _
    · split
      · exact owned_visit
      · exact owned_present ho _ _ _ _

theorem owned_catchClauses (ho : P o) : Owned P (catchClauses o scope) := by
  rw [catchClauses_eq]
  split
  · exact owned_list ho _ _ _
  · exact owned_optional ho _ _ _

theorem owned_updateExpression (ho : P o) : Owned P (updateExpression o scope) := by
  refine owned_append.2 ⟨?_, ?_⟩
  · simp only [owned_append]
    exact ⟨⟨owned_operator ho _, owned_required ho _ _ _⟩, owned_binding ho _ _⟩
  · split
    · exact owned_nil
    · exact owned_nil
    · exact owned_fault ho _

/-- A rule charges its node and what is attached to it. -/
theorem owned_ofKind (kind : Kind) (ho : P o)
    (hattached : ∀ p, Attached o kind p → p.value.isObject = true → P p) :
    Owned P (ofKind kind o scope) := by
  cases kind with
  | program =>
    exact owned_withList ho _ fun _ _ _ _ => owned_elements ho _ _ _ _ _
  | arrayExpression => exact owned_withList ho _ fun _ _ _ _ => owned_elements ho _ _ _ _ _
  | assignmentExpression =>
    simp only [ofKind, assignmentExpression, operation, owned_append]
    exact ⟨⟨⟨owned_operator ho _, owned_required ho _ _ _⟩, owned_required ho _ _ _⟩,
      owned_binding ho _ _⟩
  | binaryExpression | logicalExpression =>
    simp only [ofKind, operation, owned_append]
    exact ⟨⟨owned_operator ho _, owned_required ho _ _ _⟩, owned_required ho _ _ _⟩
  | callExpression | newExpression =>
    exact owned_append.2 ⟨owned_required ho _ _ _, owned_list ho _ _ _⟩
  | conditionalExpression =>
    simp only [ofKind, conditionalExpression, owned_append]
    exact ⟨⟨owned_required ho _ _ _, owned_required ho _ _ _⟩, owned_required ho _ _ _⟩
  | functionExpression | functionDeclaration => exact owned_function _ ho
  | identifier | literal => exact owned_faults ho _
  | memberExpression =>
    exact owned_memberExpression ho fun hcomputed c hc => hattached c (.memberName hcomputed hc)
  | objectExpression =>
    refine owned_withList ho _ fun _ values hlist hvalues => ?_
    have hindexed : values.zipIdx = o.value.indexed "properties" := by
      simp [Tree.indexed, hlist, hvalues]
    rw [hindexed]
    exact owned_properties ho (fun _ _ h hobject => hattached _ (.property h) hobject)
      (fun _ _ h c hc => hattached c (.key h hc)) _
  | sequenceExpression =>
    exact owned_withList ho _ fun _ _ _ _ =>
      owned_append.2 ⟨owned_faultIf ho _ _, owned_elements ho _ _ _ _ _⟩
  | thisExpression | debuggerStatement | emptyStatement => exact owned_nil
  | unaryExpression =>
    simp only [ofKind, unaryExpression, owned_append]
    exact ⟨⟨owned_operator ho _, owned_required ho _ _ _⟩, owned_faultIf ho _ _⟩
  | updateExpression => exact owned_updateExpression ho
  | blockStatement => exact owned_list ho _ _ _
  | breakStatement | continueStatement =>
    exact owned_append.2 ⟨owned_faultIf ho _ _, owned_labelUse ho⟩
  | doWhileStatement | whileStatement =>
    exact owned_append.2 ⟨owned_required ho _ _ _, owned_required ho _ _ _⟩
  | expressionStatement | throwStatement => exact owned_required ho _ _ _
  | forInStatement =>
    simp only [ofKind, forInStatement, owned_append]
    exact ⟨⟨⟨owned_required ho _ _ _, owned_binding ho _ _⟩, owned_required ho _ _ _⟩,
      owned_required ho _ _ _⟩
  | forStatement =>
    simp only [ofKind, forStatement, owned_append]
    exact ⟨⟨⟨owned_optional ho _ _ _, owned_optional ho _ _ _⟩, owned_optional ho _ _ _⟩,
      owned_required ho _ _ _⟩
  | ifStatement =>
    simp only [ofKind, ifStatement, owned_append]
    exact ⟨⟨⟨owned_required ho _ _ _, owned_required ho _ _ _⟩, owned_optional ho _ _ _⟩,
      owned_faultIf ho _ _⟩
  | labeledStatement => exact owned_labeledStatement ho
  | returnStatement => exact owned_append.2 ⟨owned_faultIf ho _ _, owned_optional ho _ _ _⟩
  | switchStatement =>
    exact owned_append.2 ⟨owned_required ho _ _ _, owned_withList ho _ fun _ _ _ _ =>
      owned_append.2 ⟨owned_elements ho _ _ _ _ _, owned_flatMap fun _ _ => owned_fault ho _⟩⟩
  | tryStatement =>
    simp only [ofKind, tryStatement, owned_append]
    exact ⟨⟨⟨owned_required ho _ _ _, owned_catchClauses ho⟩, owned_optional ho _ _ _⟩,
      owned_faultIf ho _ _⟩
  | variableDeclaration =>
    exact owned_append.2 ⟨owned_faultIf ho _ _, owned_withList ho _ fun _ _ _ _ =>
      owned_append.2 ⟨owned_elements ho _ _ _ _ _, owned_faultIf ho _ _⟩⟩
  | withStatement =>
    simp only [ofKind, withStatement, owned_append]
    exact ⟨⟨owned_faultIf ho _ _, owned_required ho _ _ _⟩, owned_required ho _ _ _⟩
  | catchClause =>
    simp only [ofKind, catchClause, owned_append]
    exact ⟨⟨owned_required ho _ _ _, owned_binding ho _ _⟩, owned_required ho _ _ _⟩
  | switchCase => exact owned_append.2 ⟨owned_optional ho _ _ _, owned_list ho _ _ _⟩
  | variableDeclarator =>
    simp only [ofKind, variableDeclarator, owned_append]
    exact ⟨⟨owned_required ho _ _ _, owned_binding ho _ _⟩, owned_optional ho _ _ _⟩

end Rule

/-- The values that are checked along with a visit, though they are not visited. -/
def Visit.Attached (v : Visit) (p : Occurrence) : Prop :=
  v.role = .node ∧ ∃ kind, v.occurrence.value.kind? = some kind ∧
    Rule.Attached v.occurrence kind p

/-- The steps at a visited node charge the node, and objects that are attached to it. -/
theorem Visit.owned_steps {P : Occurrence → Prop} {v : Visit} {kind : Kind}
    (hkind : v.occurrence.value.kind? = some kind) (ho : P v.occurrence)
    (hattached : ∀ p, v.Attached p → p.value.isObject = true → P p) :
    Steps.Owned P v.steps := by
  rw [steps_of_kind hkind]
  refine Steps.owned_append.2 ⟨Steps.owned_location fun _ => ho, ?_⟩
  cases hrole : v.role with
  | node => exact Rule.owned_ofKind kind ho fun p hp => hattached p ⟨hrole, kind, hkind, hp⟩
  | functionBody => exact Steps.owned_list ho _ _ _

/-- **At a visit, the value itself is charged, or one that is attached to it.** -/
theorem Visit.owner_of_mem_own {v : Visit} {w : Violation} (h : w ∈ v.own) :
    w.owner = v.occurrence ∨ v.Attached w.owner := by
  cases hkind : v.occurrence.value.nodeKind with
  | error fault =>
    rw [own, hkind, List.mem_singleton] at h
    exact Or.inl (h ▸ rfl)
  | ok kind =>
    have hsome := Tree.nodeKind_eq_ok_iff.1 hkind
    rw [own_of_kind hsome] at h
    exact owned_steps (P := fun p => p = v.occurrence ∨ v.Attached p) hsome (Or.inl rfl)
      (fun _ hp _ => Or.inr hp) w h

/-- At a node only objects are charged. -/
theorem Visit.isObject_of_mem_own {v : Visit} {kind : Kind} {w : Violation}
    (hkind : v.occurrence.value.kind? = some kind) (h : w ∈ v.own) :
    w.owner.value.isObject = true := by
  rw [own_of_kind hkind] at h
  exact owned_steps (P := fun p => p.value.isObject = true) hkind
    (Tree.isObject_of_kind? hkind) (fun _ _ hobject => hobject) w h

end ScriptTree
