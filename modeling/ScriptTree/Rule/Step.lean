/-
  The steps of a rule: violations to report and values to visit, in order.

  * `Step`: one of these.  A value is visited in a scope and a role; the body of a
    function is visited as a list of source elements, not as a block of statements.
  * `Steps.required`, `Steps.optional`, `Steps.list`: the steps for one field.
  * `Step.Within`: a step visits nothing but what lies inside an occurrence.  Every
    combinator keeps to the occurrence it is given (`within_required` and so on), which
    is why a traversal ends.
-/
import ScriptTree.Lexical.Name
import ScriptTree.Scope
import ScriptTree.Violation

namespace ScriptTree

/-- The way in which a node is looked at. -/
inductive Role where
  /-- As a node by itself. -/
  | node
  /-- As the block that is the body of a function. -/
  | functionBody
  deriving DecidableEq, Repr

/-- A step of a rule. -/
inductive Step where
  | report (violation : Violation)
  | visit (role : Role) (scope : Scope) (occurrence : Occurrence)

/-- A step visits nothing but values inside the value of an occurrence. -/
def Step.Within (o : Occurrence) : Step → Prop
  | .report _ => True
  | .visit _ _ c => sizeOf c.value < sizeOf o.value

/-- The kind of a value in the position of a node, or what keeps it from being one. -/
def Tree.nodeKind (t : Tree) : Except Fault Kind :=
  if t.isObject then
    match t.typeName? with
    | none => .error .missingType
    | some name =>
      match Kind.ofName? name with
      | none => .error (.unknownType name)
      | some kind => .ok kind
  else .error (.notNode t.describe)

/-- The name of an identifier, if a value is one and its name is a string. -/
def Tree.identifierName? (t : Tree) : Option String :=
  if t.kind? = some .identifier then t.get? "name" >>= Tree.string? else none

namespace Steps

/-- Reports a fault of an occurrence. -/
def fault (o : Occurrence) (f : Fault) : List Step := [.report ⟨o, f⟩]

/-- Reports a fault if a test asks for it. -/
def faultIf (test : Bool) (o : Occurrence) (f : Fault) : List Step :=
  if test then fault o f else []

/-! ## Source locations -/

/-- The faults of one position of a location. -/
def endpointFaults (location : Tree) (endpoint : Endpoint) : List Fault :=
  match location.child? endpoint.name with
  | none => [.missingEndpoint endpoint]
  | some position =>
    let atLeast (bound : Double) (name : String) : Bool :=
      (position.get? name >>= Tree.number?).any (bound.le ·)
    (if atLeast .one "line" then [] else [.invalidLine endpoint]) ++
      if atLeast .zero "column" then [] else [.invalidColumn endpoint]

/-- The faults of the location of a value.  A value needs none. -/
def locationFaults (t : Tree) : List Fault :=
  match t.child? "loc" with
  | none => []
  | some location =>
    (match location.child? "source" with
      | none | some (.string _) => []
      | some _ => [.notString (.named "loc.source")]) ++
    endpointFaults location .start ++ endpointFaults location .stop

/-- Reports the faults of the location of an occurrence. -/
def location (o : Occurrence) : List Step :=
  (locationFaults o.value).map fun f => .report ⟨o, f⟩

/-! ## Fields -/

/-- A child that is present: a node of the wrong kind is reported, and visited all the
    same. -/
def present (o : Occurrence) (field : Field) (category : Category) (scope : Scope)
    (c : Occurrence) : List Step :=
  (match c.value.kind? with
    | some kind => faultIf (!category.contains kind) o (.misplaced field category kind)
    | none => []) ++ [.visit .node scope c]

/-- A child that must be present. -/
def required (o : Occurrence) (name : String) (category : Category) (scope : Scope) :
    List Step :=
  match o.child? name with
  | some c => present o (.named name) category scope c
  | none => fault o (.missing (.named name))

/-- A child that may be absent. -/
def optional (o : Occurrence) (name : String) (category : Category) (scope : Scope) :
    List Step :=
  match o.child? name with
  | some c => present o (.named name) category scope c
  | none => []

/-- One element of a list.  A hole is `null`. -/
def element (o : Occurrence) (name : String) (category : Category) (holes : Bool)
    (scope : Scope) (value : Tree) (index : Nat) : List Step :=
  match value with
  | .null => faultIf (!holes) o (.missing (.element name index))
  | value => present o (.element name index) category scope (o.element name index value)

/-- The elements of a list. -/
def elements (o : Occurrence) (name : String) (category : Category) (holes : Bool)
    (scope : Scope) (values : List Tree) : List Step :=
  values.zipIdx.flatMap fun (value, index) => element o name category holes scope value index

/-- A list that must be present, and what to do with its elements. -/
def withList (o : Occurrence) (name : String) (steps : List Tree → List Step) : List Step :=
  match o.value.child? name with
  | none => fault o (.missing (.named name))
  | some list =>
    match list.elements? with
    | none => fault o (.notArray (.named name))
    | some values => steps values

/-- A list that must be present and has no holes. -/
def list (o : Occurrence) (name : String) (category : Category) (scope : Scope) : List Step :=
  withList o name (elements o name category false scope)

/-! ## Names -/

/-- The operator of a node. -/
def operator (o : Occurrence) (family : OperatorFamily) : List Step :=
  match o.value.child? "operator" with
  | none => fault o (.invalidOperator family none)
  | some (.string token) =>
    faultIf (!family.isLegal token) o (.invalidOperator family (some (Fault.quoted token)))
  | some found => fault o (.invalidOperator family (some found.describe))

/-- A value that is bound or assigned: strict code does not allow a restricted name. -/
def binding (o : Occurrence) (scope : Scope) (target : Option Tree) : List Step :=
  if scope.strict then
    match target >>= Tree.identifierName? with
    | some name => faultIf (Name.isRestricted name) o (.restrictedName name)
    | none => []
  else []

/-! ## What is visited -/

/-- Steps that visit nothing but values inside an occurrence. -/
def Within (o : Occurrence) (steps : List Step) : Prop := ∀ step ∈ steps, step.Within o

@[simp] theorem within_nil {o : Occurrence} : Within o [] := fun _ h => nomatch h

@[simp] theorem within_append {o : Occurrence} {a b : List Step} :
    Within o (a ++ b) ↔ Within o a ∧ Within o b :=
  List.forall_mem_append

theorem within_flatMap {α : Type} {o : Occurrence} {l : List α} {f : α → List Step} :
    Within o (l.flatMap f) ↔ ∀ a ∈ l, Within o (f a) := by
  simp only [Within, List.mem_flatMap, forall_exists_index, and_imp]
  exact ⟨fun h a ha s hs => h s a ha hs, fun h s a ha hs => h a ha s hs⟩

theorem Within.trans {a b : Occurrence} {steps : List Step} (h : Within a steps)
    (hab : sizeOf a.value < sizeOf b.value) : Within b steps := by
  intro step hstep
  have := h step hstep
  cases step with
  | report => trivial
  | visit _ _ c => exact Nat.lt_trans this hab

@[simp] theorem within_fault {o p : Occurrence} {f : Fault} : Within o (fault p f) := by
  intro step hstep
  rw [fault, List.mem_singleton] at hstep
  subst hstep
  trivial

@[simp] theorem within_faultIf {o p : Occurrence} {test : Bool} {f : Fault} :
    Within o (faultIf test p f) := by
  unfold faultIf
  split
  · exact within_fault
  · exact within_nil

@[simp] theorem within_location {o p : Occurrence} : Within o (location p) := by
  intro step hstep
  obtain ⟨_, _, rfl⟩ := List.mem_map.1 hstep
  trivial

theorem within_visit {o c : Occurrence} {role : Role} {scope : Scope}
    (h : sizeOf c.value < sizeOf o.value) : Within o [.visit role scope c] := by
  intro step hstep
  rw [List.mem_singleton] at hstep
  subst hstep
  exact h

theorem within_present {o c : Occurrence} {field : Field} {category : Category} {scope : Scope}
    (h : sizeOf c.value < sizeOf o.value) : Within o (present o field category scope c) := by
  refine within_append.2 ⟨?_, within_visit h⟩
  split
  · exact within_faultIf
  · exact within_nil

@[simp] theorem within_required {o : Occurrence} {name : String} {category : Category}
    {scope : Scope} : Within o (required o name category scope) := by
  unfold required
  split
  · next h => exact within_present (Occurrence.sizeOf_lt_of_child? h)
  · exact within_fault

@[simp] theorem within_optional {o : Occurrence} {name : String} {category : Category}
    {scope : Scope} : Within o (optional o name category scope) := by
  unfold optional
  split
  · next h => exact within_present (Occurrence.sizeOf_lt_of_child? h)
  · exact within_nil

theorem within_withList {o : Occurrence} {name : String} {steps : List Tree → List Step}
    (h : ∀ list values, o.value.child? name = some list → list.elements? = some values →
      Within o (steps values)) : Within o (withList o name steps) := by
  unfold withList
  split
  · exact within_fault
  · next list hlist =>
    split
    · exact within_fault
    · next values hvalues => exact h list values hlist hvalues

theorem within_elements {o : Occurrence} {name : String} {list : Tree} {values : List Tree}
    (hlist : o.value.child? name = some list) (hvalues : list.elements? = some values)
    (category : Category) (holes : Bool) (scope : Scope) :
    Within o (elements o name category holes scope values) := by
  refine within_flatMap.2 fun (value, index) hmem => ?_
  have hvalue : value ∈ values := (List.mem_zipIdx hmem).2.2 ▸ List.getElem_mem _
  simp only [element]
  split
  · exact within_faultIf
  · exact within_present (Occurrence.sizeOf_lt_of_element hlist hvalues hvalue)

@[simp] theorem within_list {o : Occurrence} {name : String} {category : Category} {scope : Scope} :
    Within o (list o name category scope) :=
  within_withList fun _ _ hlist hvalues => within_elements hlist hvalues category false scope

@[simp] theorem within_operator {o : Occurrence} {family : OperatorFamily} :
    Within o (operator o family) := by
  unfold operator
  split
  · exact within_fault
  · exact within_faultIf
  · exact within_fault

@[simp] theorem within_binding {o : Occurrence} {scope : Scope} {target : Option Tree} :
    Within o (binding o scope target) := by
  unfold binding
  split
  · split
    · exact within_faultIf
    · exact within_nil
  · exact within_nil

end Steps

end ScriptTree
