/-
  The source locations that a traversal checks.

  A location is checked at every node that is visited, and at what the rules of object literals
  and members look at without visiting it: properties, their keys, and the names behind a dot.

  * `Rule.attached`: these values, in order; `Visit.Checks`: the values whose locations are
    checked at a visit.
  * `Steps.locations`, `Rule.locations_ofKind`: what some steps report about locations; a rule
    reports only those of what is attached to its node.
  * `Tree.Visits.filter_isLocation_chargedAt`: at each of these values the faults of its own
    location are charged, and `Tree.exists_checks_of_isLocation`: nowhere else are any.
-/
import ScriptTree.Proofs.Tally

namespace ScriptTree

/-! ## What is checked -/

namespace Rule

variable {o p : Occurrence} {kind : Kind}

/-- The values that the rule of a node checks, though they are no nodes of their own, in
    order. -/
def attached (o : Occurrence) : Kind → List Occurrence
  | .objectExpression => (o.value.indexed "properties").flatMap fun (value, index) =>
      o.element "properties" index value ::
        ((o.element "properties" index value).child? "key").toList
  | .memberExpression => if isComputed o.value then [] else (o.child? "property").toList
  | _ => []

theorem mem_attached_iff : p ∈ attached o kind ↔ Attached o kind p := by
  constructor
  · intro h
    cases kind with
    | objectExpression =>
      obtain ⟨⟨value, index⟩, hmem, hp⟩ := List.mem_flatMap.1 h
      rcases List.mem_cons.1 hp with rfl | hkey
      · exact .property hmem
      · exact .key hmem (Option.mem_toList.1 hkey)
    | memberExpression =>
      simp only [attached] at h
      split at h
      · cases h
      · next hcomputed =>
        exact .memberName (Bool.not_eq_true _ ▸ hcomputed) (Option.mem_toList.1 h)
    | _ => cases h
  · intro h
    cases h with
    | property hmem => exact List.mem_flatMap.2 ⟨_, hmem, List.mem_cons_self⟩
    | key hmem hkey =>
      refine List.mem_flatMap.2 ⟨_, hmem, List.mem_cons_of_mem _ ?_⟩
      exact Option.mem_toList.2 hkey
    | memberName hcomputed hname =>
      simp only [attached, hcomputed]
      exact Option.mem_toList.2 hname

/-- What is attached to a node stands below it. -/
theorem Attached.trail_ne (h : Attached o kind p) : o.trail ≠ p.trail := by
  intro heq
  have hlength := congrArg List.length heq
  cases h with
  | property =>
    simp only [Occurrence.element, List.length_cons] at hlength
    omega
  | key _ hc =>
    rw [(Occurrence.child?_eq_some_iff.1 hc).2] at hlength
    simp only [Occurrence.element, List.length_cons] at hlength
    omega
  | memberName _ hc =>
    rw [(Occurrence.child?_eq_some_iff.1 hc).2] at hlength
    simp only [List.length_cons] at hlength
    omega

/-- What is attached to a node is at different places. -/
theorem pairwise_attached (o : Occurrence) (kind : Kind) :
    (attached o kind).Pairwise fun p q => p.trail ≠ q.trail := by
  cases kind with
  | objectExpression =>
    -- a property and its key are at or below the place of the property
    have hbelow : ∀ {value index p}, p ∈ o.element "properties" index value ::
        ((o.element "properties" index value).child? "key").toList →
        .element index :: .field "properties" :: o.trail <:+ p.trail := by
      intro value index p hp
      rcases List.mem_cons.1 hp with rfl | hkey
      · exact List.suffix_rfl
      · rw [(Occurrence.child?_eq_some_iff.1 (Option.mem_toList.1 hkey)).2]
        exact List.suffix_cons _ _
    refine List.pairwise_flatMap.2 ⟨?_, ?_⟩
    · rintro ⟨value, index⟩ -
      refine List.pairwise_cons.2 ⟨fun key hkey heq => ?_, ?_⟩
      · have htrail := (Occurrence.child?_eq_some_iff.1 (Option.mem_toList.1 hkey)).2
        have hlength := congrArg List.length (heq.trans htrail)
        rw [List.length_cons] at hlength
        omega
      · cases (o.element "properties" index value).child? "key" <;> simp
    · refine (Slot.pairwise_indexed o.value "properties").imp fun {a b} hne p hp q hq heq => ?_
      have hapart : Apart (.element a.2 :: .field "properties" :: o.trail)
          (.element b.2 :: .field "properties" :: o.trail) := apart_cons (by simpa using hne)
      exact hapart _ (hbelow hp) (heq ▸ hbelow hq)
  | memberExpression =>
    simp only [attached]
    split
    · exact .nil
    · cases o.child? "property" <;> simp
  | _ => exact .nil

end Rule

/-- The values whose locations are checked at a visit, in order. -/
def Visit.checked (v : Visit) (kind : Kind) : List Occurrence :=
  v.occurrence :: if v.role = .node then Rule.attached v.occurrence kind else []

/-- The location of an object is checked at a visit: the object is the node that is visited, or
    one that is attached to it. -/
def Visit.Checks (v : Visit) (p : Occurrence) : Prop :=
  (∃ kind, v.occurrence.value.kind? = some kind) ∧ p.value.isObject = true ∧
    (p = v.occurrence ∨ v.Attached p)

namespace Visit

variable {v : Visit} {p : Occurrence} {kind : Kind}

theorem mem_checked_iff (hkind : v.occurrence.value.kind? = some kind) :
    p ∈ v.checked kind ↔ p = v.occurrence ∨ v.Attached p := by
  rw [checked, List.mem_cons]
  refine or_congr_right ?_
  constructor
  · intro h
    split at h
    · next hrole => exact ⟨hrole, kind, hkind, Rule.mem_attached_iff.1 h⟩
    · cases h
  · rintro ⟨hrole, kind', hkind', hattached⟩
    obtain rfl := Option.some.inj (hkind.symm.trans hkind')
    rw [if_pos hrole]
    exact Rule.mem_attached_iff.2 hattached

theorem pairwise_checked (v : Visit) (kind : Kind) :
    (v.checked kind).Pairwise fun p q => p.trail ≠ q.trail := by
  unfold checked
  split
  · exact List.pairwise_cons.2 ⟨fun p hp => (Rule.mem_attached_iff.1 hp).trail_ne,
      Rule.pairwise_attached ..⟩
  · exact List.pairwise_singleton ..

end Visit

/-! ## What is reported -/

namespace Steps

variable {o : Occurrence} {scope : Scope} {name : String} {category : Category} {f : Fault}

/-- What some steps report about source locations, in order. -/
def locations (steps : List Step) : List Violation :=
  (reports steps).filter fun w => w.fault.isLocation

/-- What is reported about the location of an occurrence. -/
def locationReports (o : Occurrence) : List Violation :=
  (locationFaults o.value).map (⟨o, ·⟩)

@[simp] theorem locations_nil : locations [] = [] := rfl

@[simp] theorem locations_append (a b : List Step) :
    locations (a ++ b) = locations a ++ locations b := by
  rw [locations, reports_append, List.filter_append]
  rfl

theorem locations_flatMap {α : Type} {l : List α} {g : α → List Step}
    (h : ∀ a ∈ l, locations (g a) = []) : locations (l.flatMap g) = [] := by
  induction l with
  | nil => rfl
  | cons a l ih =>
    obtain ⟨ha, hl⟩ := List.forall_mem_cons.1 h
    rw [List.flatMap_cons, locations_append, ha, ih hl]
    rfl

@[simp] theorem locations_location : locations (location o) = locationReports o := by
  rw [locations, reports_location]
  refine List.filter_eq_self.2 fun w hw => ?_
  obtain ⟨f, hf, rfl⟩ := List.mem_map.1 hw
  exact isLocation_of_mem_locationFaults hf

@[simp] theorem locations_visit {role : Role} {c : Occurrence} :
    locations [.visit role scope c] = [] := rfl

theorem locations_fault (hf : f.isLocation = false) : locations (fault o f) = [] := by
  simp [locations, hf]

theorem locations_faultIf {test : Bool} (hf : f.isLocation = false) :
    locations (faultIf test o f) = [] := by
  cases test with
  | true => exact locations_fault hf
  | false => rfl

theorem locations_faults {faults : Option Fault} (h : ∀ f ∈ faults, f.isLocation = false) :
    locations (faults.toList.flatMap (fault o)) = [] :=
  locations_flatMap fun f hf => locations_fault (h f (Option.mem_toList.1 hf))

/-! A field has no location of its own. -/

@[simp] theorem locations_present {field : Field} {c : Occurrence} :
    locations (present o field category scope c) = [] := by
  rw [present, locations_append, locations_visit, List.append_nil]
  split
  · exact locations_faultIf rfl
  · rfl

@[simp] theorem locations_required : locations (required o name category scope) = [] := by
  unfold required
  split
  · exact locations_present
  · exact locations_fault rfl

@[simp] theorem locations_optional : locations (optional o name category scope) = [] := by
  unfold optional
  split
  · exact locations_present
  · rfl

@[simp] theorem locations_elements {holes : Bool} {values : List Tree} :
    locations (elements o name category holes scope values) = [] := by
  refine locations_flatMap fun (value, index) _ => ?_
  simp only [element]
  split
  · exact locations_faultIf rfl
  · exact locations_present

theorem locations_withList {steps : List Tree → List Step}
    (h : ∀ values, locations (steps values) = []) : locations (withList o name steps) = [] := by
  unfold withList
  split
  · exact locations_fault rfl
  · split
    · exact locations_fault rfl
    · exact h _

@[simp] theorem locations_list : locations (list o name category scope) = [] :=
  locations_withList fun _ => locations_elements

@[simp] theorem locations_operator {family : OperatorFamily} :
    locations (operator o family) = [] := by
  unfold operator
  split
  · exact locations_fault rfl
  · exact locations_faultIf rfl
  · exact locations_fault rfl

@[simp] theorem locations_binding {target : Option Tree} :
    locations (binding o scope target) = [] := by
  unfold binding
  split
  · split
    · exact locations_faultIf rfl
    · rfl
  · rfl

end Steps

namespace Rule

open Steps

variable {o : Occurrence} {scope : Scope}

theorem locations_identifier : locations (identifier o scope) = [] := by
  refine locations_faults fun f hf => ?_
  rcases identifierFault_cases hf with rfl | ⟨word, rfl⟩ | ⟨word, rfl⟩ | rfl
  all_goals rfl

theorem locations_literal : locations (literal o) = [] := by
  refine locations_faults fun f hf => ?_
  rcases literalFault_cases hf with rfl | ⟨_, rfl⟩ | rfl | rfl
  all_goals rfl

theorem locations_updateExpression : locations (updateExpression o scope) = [] := by
  simp only [updateExpression, locations_append, locations_operator, locations_required,
    locations_binding, List.nil_append]
  split
  · rfl
  · rfl
  · exact locations_fault rfl

theorem locations_function (form : FunctionForm) : locations (function form o scope) = [] := by
  have hname : ∀ inner, locations (functionName form o inner) = [] := by
    intro inner
    cases form <;> simp [functionName]
  have hparameters : ∀ inner, locations (parameters o inner) = [] := by
    intro inner
    refine locations_withList fun params => ?_
    rw [locations_append, locations_append, locations_elements,
      locations_flatMap fun _ _ => locations_binding]
    split
    · exact locations_flatMap fun _ _ => locations_fault rfl
    · rfl
  have hbody : ∀ inner, locations (functionBody o scope inner) = [] := by
    intro inner
    unfold functionBody
    split
    · exact locations_fault rfl
    · split
      · rfl
      · exact locations_present
  simp only [function, locations_append, hname, hparameters, hbody, List.append_nil]

theorem locations_labelUse : locations (labelUse o scope) = [] := by
  rw [labelUse, locations_append, locations_optional]
  split
  · exact locations_faultIf rfl
  · rfl

theorem locations_labeledStatement : locations (labeledStatement o scope) = [] := by
  rw [labeledStatement, locations_append, locations_required]
  split
  · rw [locations_append, locations_faultIf rfl, locations_required]
    rfl
  · exact locations_required

theorem locations_catchClauses : locations (catchClauses o scope) = [] := by
  rw [catchClauses_eq]
  split
  · exact locations_list
  · exact locations_optional

/-- Of a member, the location of the name behind its dot is checked. -/
theorem locations_memberExpression : locations (memberExpression o scope) =
    (attached o .memberExpression).flatMap locationReports := by
  rw [memberExpression, locations_append, locations_required, List.nil_append, attached]
  split
  · exact locations_required
  · unfold memberName
    cases o.child? "property" with
    | none => exact locations_fault rfl
    | some c => simp [locations_faultIf (f := .invalidMemberName) rfl]

/-- Of a property, its own location and that of its key are checked. -/
theorem locations_property {p : Occurrence} {names : SeenNames} :
    locations (property p scope names) =
      (p :: (p.child? "key").toList).flatMap locationReports := by
  have hkey : locations (propertyKey p) = (p.child? "key").toList.flatMap locationReports := by
    unfold propertyKey
    cases p.child? "key" with
    | none => exact locations_fault rfl
    | some c => simp [locations_faultIf (f := .invalidPropertyKey) rfl]
  have haccessor : locations (accessor p) = [] := by
    unfold accessor
    split
    · exact locations_faultIf rfl
    · exact locations_faultIf rfl
    · rfl
  have hconflict : locations (conflict p scope names) = [] := by
    unfold conflict
    split
    · refine locations_faults fun f hf => ?_
      rcases seenFault_cases hf with rfl | rfl
      · rfl
      · rfl
    · rfl
  simp only [property, locations_append, locations_location, locations_required, hkey, haccessor,
    hconflict, locations_faultIf (f := .invalidPropertyKind) rfl, List.append_nil,
    List.flatMap_cons]

theorem locations_properties {values : List (Tree × Nat)} {names : SeenNames} :
    locations (properties o scope names values) =
      (values.flatMap fun (value, index) => o.element "properties" index value ::
        ((o.element "properties" index value).child? "key").toList).flatMap locationReports := by
  induction values generalizing names with
  | nil => rfl
  | cons first rest ih =>
    obtain ⟨value, index⟩ := first
    rw [properties, List.flatMap_cons, List.flatMap_append]
    split
    · rw [locations_append, locations_property, ih]
    · next hobject =>
      -- what is no object has neither a location nor a key
      have hchild : ∀ name, value.child? name = none := by
        intro name
        cases value with
        | object => exact absurd rfl hobject
        | _ => rfl
      have hreports : locationReports (o.element "properties" index value) = [] := by
        simp [locationReports, locationFaults, Occurrence.element, hchild]
      have hkey : (o.element "properties" index value).child? "key" = none := by
        simp [Occurrence.child?, Occurrence.element, hchild]
      rw [locations_append, locations_fault rfl, List.flatMap_cons, hreports, hkey, ih]
      rfl

/-- **A rule reports only the locations of what is attached to its node.** -/
theorem locations_ofKind (kind : Kind) :
    locations (ofKind kind o scope) = (attached o kind).flatMap locationReports := by
  cases kind with
  | program => exact locations_withList fun _ => locations_elements
  | arrayExpression => exact locations_withList fun _ => locations_elements
  | assignmentExpression =>
    simp [ofKind, assignmentExpression, operation, attached]
  | binaryExpression | logicalExpression => simp [ofKind, operation, attached]
  | callExpression | newExpression => simp [ofKind, callExpression, attached]
  | conditionalExpression => simp [ofKind, conditionalExpression, attached]
  | functionExpression | functionDeclaration => exact locations_function _
  | identifier => exact locations_identifier
  | literal => exact locations_literal
  | memberExpression => exact locations_memberExpression
  | objectExpression =>
    simp only [ofKind, objectExpression, withList, attached, Tree.indexed]
    cases o.value.child? "properties" with
    | none => exact locations_fault rfl
    | some list =>
      cases hvalues : list.elements? with
      | none => simp [hvalues, locations_fault (f := .notArray (.named "properties")) rfl]
      | some values => simp [hvalues, locations_properties]
  | sequenceExpression =>
    refine locations_withList fun _ => ?_
    rw [locations_append, locations_faultIf rfl, locations_elements]
    rfl
  | thisExpression | debuggerStatement | emptyStatement => rfl
  | unaryExpression =>
    simp [ofKind, unaryExpression, attached, locations_faultIf (f := .strictDelete) rfl]
  | updateExpression => exact locations_updateExpression
  | blockStatement => exact locations_list
  | breakStatement =>
    simp [ofKind, breakStatement, attached, locations_labelUse,
      locations_faultIf (f := .breakOutside) rfl]
  | continueStatement =>
    simp [ofKind, continueStatement, attached, locations_labelUse,
      locations_faultIf (f := .continueOutside) rfl]
  | doWhileStatement => simp [ofKind, doWhileStatement, loopBody, attached]
  | whileStatement => simp [ofKind, whileStatement, loopBody, attached]
  | expressionStatement | throwStatement => exact locations_required
  | forInStatement => simp [ofKind, forInStatement, loopBody, attached]
  | forStatement => simp [ofKind, forStatement, loopBody, attached]
  | ifStatement =>
    simp [ofKind, ifStatement, attached, locations_faultIf (f := .danglingElse) rfl]
  | labeledStatement => exact locations_labeledStatement
  | returnStatement =>
    simp [ofKind, returnStatement, attached, locations_faultIf (f := .returnOutside) rfl]
  | switchStatement =>
    rw [ofKind, switchStatement, locations_append, locations_required]
    refine locations_withList fun _ => ?_
    rw [switchCases, locations_append, locations_elements,
      locations_flatMap fun _ _ => locations_fault rfl]
    rfl
  | tryStatement =>
    simp [ofKind, tryStatement, attached, locations_catchClauses,
      locations_faultIf (f := .bareTry) rfl]
  | variableDeclaration =>
    rw [ofKind, variableDeclaration, locations_append, locations_faultIf rfl]
    refine locations_withList fun _ => ?_
    rw [locations_append, locations_elements, locations_faultIf rfl]
    rfl
  | withStatement =>
    simp [ofKind, withStatement, attached, locations_faultIf (f := .strictWith) rfl]
  | catchClause => simp [ofKind, catchClause, attached]
  | switchCase => simp [ofKind, switchCase, attached]
  | variableDeclarator => simp [ofKind, variableDeclarator, attached]

end Rule

/-! ## What is charged -/

/-- What is reported about locations at different places is charged at each of them. -/
theorem chargedAt_locationReports {l : List Occurrence} {p : Occurrence}
    (hl : l.Pairwise fun p q => p.trail ≠ q.trail) (hp : p ∈ l) :
    chargedAt p.trail (l.flatMap Steps.locationReports) = Steps.locationFaults p.value := by
  have hself : chargedAt p.trail (Steps.locationReports p) = Steps.locationFaults p.value := by
    simp [chargedAt, Steps.locationReports, List.filterMap_map]
  rw [← hself, chargedAt, List.filterMap_flatMap]
  refine flatMap_eq_of_pairwise (f := fun c => chargedAt p.trail (Steps.locationReports c)) hl hp
    fun c hc => chargedAt_eq_nil_iff.2 fun w hw heq => ?_
  obtain ⟨f, -, rfl⟩ := List.mem_map.1 hw
  rcases hc with hne | hne
  · exact hne heq.symm
  · exact hne heq

/-- A rule reports the locations of its node and of what is attached to it. -/
theorem Visit.locations_steps {v : Visit} {kind : Kind}
    (hkind : v.occurrence.value.kind? = some kind) :
    Steps.locations v.steps = (v.checked kind).flatMap Steps.locationReports := by
  rw [steps_of_kind hkind, checked, List.flatMap_cons, ← Steps.locations_location]
  cases v.role with
  | node => rw [rule, Steps.locations_append, Rule.locations_ofKind, if_pos rfl]
  | functionBody =>
    rw [rule, Steps.locations_append, Rule.sourceElements, Steps.locations_list]
    rfl

namespace Tree

variable {strict : Bool} {t : Tree} {v : Visit} {p : Occurrence}

/-- **At a value whose location is checked, the faults of the location are charged.** -/
theorem Visits.filter_isLocation_chargedAt (h : t.Visits strict v) (hchecks : v.Checks p) :
    (t.chargedAt strict p.trail).filter Fault.isLocation = Steps.locationFaults p.value := by
  obtain ⟨⟨kind, hkind⟩, -, hp⟩ := hchecks
  have hcharged : t.chargedAt strict p.trail = ScriptTree.chargedAt p.trail v.own := by
    rcases hp with rfl | hattached
    · exact chargedAt_of_visits h
    · exact chargedAt_of_attached h hattached
  have hlocations : (v.own.filter fun w => w.fault.isLocation) =
      (v.checked kind).flatMap Steps.locationReports := by
    rw [Visit.own_of_kind hkind]
    exact Visit.locations_steps hkind
  rw [hcharged, filter_chargedAt, hlocations]
  exact chargedAt_locationReports (v.pairwise_checked kind) ((Visit.mem_checked_iff hkind).2 hp)

/-- Nothing is charged with the location of another value. -/
theorem exists_checks_of_isLocation {w : Violation} (hw : w ∈ t.violations strict)
    (hlocation : w.fault.isLocation = true) : ∃ v, t.Visits strict v ∧ v.Checks w.owner := by
  obtain ⟨v, hv, hown⟩ := mem_violations_iff.1 hw
  refine ⟨v, hv, ?_⟩
  cases hnode : v.occurrence.value.nodeKind with
  | error fault =>
    rw [Visit.own, hnode, List.mem_singleton] at hown
    subst hown
    have hcharge : fault.mayCharge .program = true := Fault.mayCharge_of_isLocation hlocation
    rw [not_mayCharge_of_nodeKind hnode] at hcharge
    cases hcharge
  | ok kind =>
    have hkind := nodeKind_eq_ok_iff.1 hnode
    exact ⟨⟨kind, hkind⟩, Visit.isObject_of_mem_own hkind hown, Visit.owner_of_mem_own hown⟩

end Tree

end ScriptTree
