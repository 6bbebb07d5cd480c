/-
  What the grammar asks of a node.

  * `Slot.Filled`: the right nodes stand in a slot.
  * `Grammar.Content`: what a node of a kind holds apart from the nodes in its slots, its
    operator or its name for instance.
  * `Steps.Clean`: steps that report nothing and visit nothing but nodes.  Every combinator
    is clean iff the slot that it stands for is filled (`clean_required` and so on).
-/
import ScriptTree.Proofs.Grammar

namespace ScriptTree

/-- A value is a node of a category. -/
def Tree.IsA (t : Tree) (category : Category) : Prop :=
  ∃ kind, t.kind? = some kind ∧ category.contains kind = true

/-- The nodes of a slot are all there, and all of its category. -/
def Slot.Filled (s : Slot) (t : Tree) : Prop :=
  match s.shape with
  | .one => ∃ c, t.child? s.field = some c ∧ c.IsA s.category
  | .maybe => ∀ c, t.child? s.field = some c → c.IsA s.category
  | .list => ∃ values, t.child? s.field = some (.array values) ∧
    ∀ value ∈ values, value.IsA s.category
  | .sparse => ∃ values, t.child? s.field = some (.array values) ∧
    ∀ value ∈ values, value ≠ .null → value.IsA s.category
  | .values => ∃ values, t.child? s.field = some (.array values) ∧
    ∀ value ∈ values, ∃ c, value.child? "value" = some c ∧ c.IsA s.category

theorem Slot.filled_behind {s : Slot} {moves : List Scope.Move} {t : Tree} :
    (s.behind moves).Filled t ↔ s.Filled t :=
  Iff.rfl

/-! ## Contents -/

namespace Grammar

/-- A node names an operator of a family. -/
def HasOperator (family : OperatorFamily) (t : Tree) : Prop :=
  ∃ token, t.child? "operator" = some (.string token) ∧ family.isLegal token = true

/-- A value that a token of the source may stand for. -/
def IsLiteralValue : Tree → Prop
  | .null | .bool _ | .string _ | .regExp .. => True
  | .number x => x.isNaN = false ∧ x.negative = false
  | .array _ | .object _ => False

/-- A property of an object literal, apart from its value. -/
structure IsProperty (p : Tree) : Prop where
  object : p.isObject = true
  kind : ∃ kind, PropertyKind.of? p = some kind
  key : ∃ key name, p.child? "key" = some key ∧ propertyName? key = some name
  getter : PropertyKind.of? p = some .get →
    ∃ value, p.child? "value" = some value ∧ isFunctionOf 0 value = true
  setter : PropertyKind.of? p = some .set →
    ∃ value, p.child? "value" = some value ∧ isFunctionOf 1 value = true

/-- What a node of a kind holds apart from the nodes in its slots. -/
def Content (strict : Bool) (t : Tree) : Kind → Prop
  | .assignmentExpression => HasOperator .assignment t
  | .binaryExpression => HasOperator .binary t
  | .logicalExpression => HasOperator .logical t
  | .unaryExpression => HasOperator .unary t
  | .updateExpression => HasOperator .update t ∧
    ∀ flag, t.child? "prefix" = some flag → ∃ b, flag = .bool b
  | .identifier => ∃ name, t.child? "name" = some (.string name) ∧ Name.isName name = true ∧
    Name.isReserved strict name = false
  | .literal => ∃ value, t.get? "value" = some value ∧ IsLiteralValue value
  | .memberExpression => Rule.isComputed t = false →
    ∃ property name, t.child? "property" = some property ∧
      property.identifierName? = some name ∧ Name.isName name = true
  | .objectExpression => ∃ values, t.child? "properties" = some (.array values) ∧
    ∀ p ∈ values, IsProperty p
  | .sequenceExpression => ∃ values, t.child? "expressions" = some (.array values) ∧
    2 ≤ values.length
  | .variableDeclaration =>
    (∃ word ∈ ["var", "let", "const"], t.get? "kind" = some (.string word)) ∧
      ∃ first rest, t.child? "declarations" = some (.array (first :: rest))
  | .switchStatement => ∃ cases, t.child? "cases" = some (.array cases) ∧
    (cases.filter fun c => (c.child? "test").isNone).length ≤ 1
  | .tryStatement => (∃ c, t.child? "finalizer" = some c) ∨
    (∃ first rest, t.child? "handlers" = some (.array (first :: rest))) ∨
      t.child? "handlers" = none ∧ ∃ c, t.child? "handler" = some c
  | _ => True

/-- The location of a node, if it has one, has two endpoints, each with a line and a
    column that a text may have. -/
def Located (t : Tree) : Prop :=
  ∀ location, t.child? "loc" = some location →
    (∀ source, location.child? "source" = some source → ∃ name, source = .string name) ∧
    ∀ endpoint : Endpoint, ∃ position line column, location.child? endpoint.name = some position ∧
      position.get? "line" = some (.number line) ∧ Double.one.le line = true ∧
      position.get? "column" = some (.number column) ∧ Double.zero.le column = true

end Grammar

/-! ## Clean steps -/

namespace Steps

open Grammar

variable {o c : Occurrence} {scope : Scope} {name : String} {category : Category}

/-- Steps that report nothing, and visit nothing but nodes. -/
def Clean (steps : List Step) : Prop :=
  reports steps = [] ∧ ∀ w ∈ visits steps, ∃ kind, w.occurrence.value.kind? = some kind

@[simp] theorem clean_nil : Clean [] := ⟨rfl, fun _ h => nomatch h⟩

@[simp] theorem clean_append {a b : List Step} : Clean (a ++ b) ↔ Clean a ∧ Clean b := by
  simp only [Clean, reports_append, visits_append, List.append_eq_nil_iff,
    List.forall_mem_append]
  tauto

theorem clean_flatMap {α : Type} {l : List α} {f : α → List Step} :
    Clean (l.flatMap f) ↔ ∀ a ∈ l, Clean (f a) := by
  induction l with
  | nil => simp
  | cons a l ih => rw [List.flatMap_cons, clean_append, ih, List.forall_mem_cons]

@[simp] theorem not_clean_fault {f : Fault} : ¬ Clean (fault o f) := fun h => nomatch h.1

@[simp] theorem clean_faultIf {test : Bool} {f : Fault} :
    Clean (faultIf test o f) ↔ test = false := by
  cases test with
  | false => exact iff_of_true clean_nil rfl
  | true => exact iff_of_false not_clean_fault Bool.noConfusion

theorem clean_visit {role : Role} :
    Clean [.visit role scope c] ↔ ∃ kind, c.value.kind? = some kind := by
  constructor
  · exact fun h => h.2 ⟨role, scope, c⟩ List.mem_cons_self
  · intro h
    refine ⟨rfl, fun w hw => ?_⟩
    rw [List.mem_singleton.1 hw]
    exact h

theorem clean_location : Clean (location o) ↔ locationFaults o.value = [] := by
  rw [Clean, reports_location, visits_location, List.map_eq_nil_iff]
  exact and_iff_left fun _ h => nomatch h

theorem clean_present {field : Field} :
    Clean (present o field category scope c) ↔ c.value.IsA category := by
  unfold present Tree.IsA
  rw [clean_append, clean_visit]
  cases h : c.value.kind? with
  | none => simp
  | some kind => simp

theorem clean_required :
    Clean (required o name category scope) ↔ (Slot.one name category).Filled o.value := by
  unfold required
  split
  · next c hc =>
    have hchild := (Occurrence.child?_eq_some_iff.1 hc).1
    rw [clean_present]
    constructor
    · exact fun h => ⟨c.value, hchild, h⟩
    · rintro ⟨value, hvalue, h⟩
      obtain rfl := Option.some.inj (hchild.symm.trans hvalue)
      exact h
  · next hnone =>
    refine iff_of_false not_clean_fault ?_
    rintro ⟨value, hvalue, -⟩
    rw [Occurrence.child?, Option.map_eq_none_iff] at hnone
    cases hnone.symm.trans hvalue

theorem clean_optional :
    Clean (optional o name category scope) ↔ (Slot.maybe name category).Filled o.value := by
  unfold optional
  split
  · next c hc =>
    have hchild := (Occurrence.child?_eq_some_iff.1 hc).1
    rw [clean_present]
    constructor
    · intro h value hvalue
      obtain rfl := Option.some.inj (hchild.symm.trans hvalue)
      exact h
    · exact fun h => h c.value hchild
  · next hnone =>
    rw [Occurrence.child?, Option.map_eq_none_iff] at hnone
    refine iff_of_true clean_nil fun value hvalue => ?_
    cases hnone.symm.trans hvalue

/-- An element of a list is a node of the category, or a hole where holes are allowed. -/
theorem clean_element {holes : Bool} {value : Tree} {index : Nat} :
    Clean (element o name category holes scope value index) ↔
      value = .null ∧ holes = true ∨ value.IsA category := by
  have hnull : ¬ Tree.null.IsA category := by
    rintro ⟨kind, hkind, -⟩
    cases hkind
  cases value with
  | null => simp [element, hnull]
  | _ => simp [element, clean_present]; rfl

theorem clean_elements {holes : Bool} {values : List Tree} :
    Clean (elements o name category holes scope values) ↔
      ∀ value ∈ values, value = .null ∧ holes = true ∨ value.IsA category := by
  simp only [elements, clean_flatMap, clean_element]
  constructor
  · intro h value hvalue
    obtain ⟨index, hindex⟩ := List.mem_iff_getElem?.1 hvalue
    exact h (value, index) (List.mk_mem_zipIdx_iff_getElem?.2 hindex)
  · rintro h ⟨value, index⟩ hmem
    exact h value (List.mem_of_getElem? (List.mk_mem_zipIdx_iff_getElem?.1 hmem))

/-- The elements of a list without holes are nodes of the category. -/
theorem clean_elements_dense {values : List Tree} :
    Clean (elements o name category false scope values) ↔
      ∀ value ∈ values, value.IsA category := by
  simp only [clean_elements, Bool.false_eq_true, and_false, false_or]

theorem clean_withList {steps : List Tree → List Step} :
    Clean (withList o name steps) ↔
      ∃ values, o.value.child? name = some (.array values) ∧ Clean (steps values) := by
  unfold withList
  cases hlist : o.value.child? name with
  | none => simp
  | some list => cases list <;> simp [Tree.elements?]

theorem clean_list :
    Clean (list o name category scope) ↔ (Slot.list name category).Filled o.value := by
  simp only [list, clean_withList, clean_elements_dense]
  rfl

theorem clean_operator {family : OperatorFamily} :
    Clean (operator o family) ↔ HasOperator family o.value := by
  unfold operator HasOperator
  split
  · next h => simp [h]
  · next h => simp [h]
  · next found hnot h =>
    refine iff_of_false not_clean_fault ?_
    rintro ⟨token, htoken, -⟩
    exact hnot token (Option.some.inj (h.symm.trans htoken))

theorem exists_number {t : Tree} {field : String} {test : Double → Bool}
    (h : (t.get? field >>= Tree.number?).any test = true) :
    ∃ x, t.get? field = some (.number x) ∧ test x = true := by
  obtain ⟨x, hx, htest⟩ := (Option.any_eq_true _ _).1 h
  obtain ⟨value, hvalue, hnumber⟩ := Option.bind_eq_some_iff.1 hx
  cases value with
  | number y =>
    obtain rfl := Option.some.inj hnumber
    exact ⟨y, hvalue, htest⟩
  | _ => cases hnumber

theorem of_unless_eq_nil {test : Bool} {f : Fault} (h : (if test then [] else [f]) = []) :
    test = true := by
  cases test with
  | false => cases h
  | true => rfl

theorem located_of_clean (h : Clean (location o)) : Located o.value := by
  intro location hlocation
  rw [clean_location] at h
  simp only [locationFaults, hlocation, List.append_eq_nil_iff] at h
  obtain ⟨⟨hsource, hstart⟩, hstop⟩ := h
  have hendpoint : ∀ endpoint : Endpoint, endpointFaults location endpoint = [] := by
    intro endpoint
    cases endpoint with
    | start => exact hstart
    | stop => exact hstop
  constructor
  · intro source hs
    rw [hs] at hsource
    cases source with
    | string name => exact ⟨name, rfl⟩
    | _ => cases hsource
  · intro endpoint
    have h := hendpoint endpoint
    unfold endpointFaults at h
    split at h
    · cases h
    · next position hposition =>
      obtain ⟨hline, hcolumn⟩ := List.append_eq_nil_iff.1 h
      obtain ⟨line, hline, hone⟩ := exists_number (of_unless_eq_nil hline)
      obtain ⟨column, hcolumn, hzero⟩ := exists_number (of_unless_eq_nil hcolumn)
      exact ⟨position, line, column, hposition, hline, hone, hcolumn, hzero⟩

end Steps

end ScriptTree
