/-
  Faults about a part of a node: its type, its name, its operator, a field or an element.

  * `Fault.part?`: the part that a fault is about.
  * `Fault.Holds`: what such a fault says of the value that it is charged to.
  * `Steps.Reliable`: steps whose faults hold, no two of them about one part.
  * `Rule.reliable_ofKind`: the rule of every kind is reliable.
-/
import ScriptTree.Proofs.Charge
import ScriptTree.Proofs.Trail

namespace ScriptTree

/-- The part of a value that a fault is about, if it is about one. -/
def Fault.part? : Fault → Option Field
  | missing field | notArray field | misplaced field .. => some field
  | invalidOperator .. => some (.named "operator")
  | invalidName _ | reservedWord _ => some (.named "name")
  | unknownType _ => some (.named "type")
  | _ => none

/-- What stands in a field, or in one element of it. -/
def Tree.part? (t : Tree) (field : Field) : Option Tree :=
  match field.index with
  | none => t.get? field.name
  | some index => t.get? field.name >>= Tree.elements? >>= (·[index]?)

/-- What a fault about a part says of the value that it is charged to, which lies in strict
    code or in other code.  An element is missing if it is `null`, a field also if it is not
    there. -/
def Fault.Holds (strict : Prop) (t : Tree) : Fault → Prop
  | missing field => t.part? field = some .null ∨ field.index = none ∧ t.part? field = none
  | notArray field => field.index = none ∧
      ∃ value, t.child? field.name = some value ∧ value.elements? = none
  | misplaced field expected found => ∃ child, t.part? field = some child ∧
      child.kind? = some found ∧ expected.contains found = false
  | invalidOperator family _ => ∀ token, t.get? "operator" = some (.string token) →
      family.isLegal token = false
  | unknownType name => t.typeName? = some name ∧ ∀ kind : Kind, kind.name ≠ name
  | invalidName name => t.identifierName? = some name ∧ Name.isName name = false
  | reservedWord word => t.identifierName? = some word ∧
      (Name.isReserved false word = true ∨ strict ∧ Name.isReserved true word = true)
  | _ => True

theorem Fault.holds_of_part? {f : Fault} {strict : Prop} {t : Tree} (h : f.part? = none) :
    f.Holds strict t := by
  cases f with
  | missing | notArray | misplaced | invalidOperator | invalidName | reservedWord | unknownType =>
    cases h
  | _ => trivial

/-- Only for a reserved word it matters whether code is strict. -/
theorem Fault.Holds.congr {f : Fault} {strict strict' : Prop} {t : Tree} (h : f.Holds strict t)
    (hstrict : ∀ word, f = .reservedWord word → strict → strict') : f.Holds strict' t := by
  cases f with
  | reservedWord word => exact ⟨h.1, h.2.imp_right fun h => ⟨hstrict word rfl h.1, h.2⟩⟩
  | _ => exact h

/-- A field that is no child is missing. -/
theorem Tree.holds_missing {t : Tree} {name : String} {strict : Prop} (h : t.child? name = none) :
    (Fault.missing (.named name)).Holds strict t := by
  show t.get? name = some .null ∨ none = none ∧ t.get? name = none
  cases hget : t.get? name with
  | none => exact Or.inr ⟨rfl, rfl⟩
  | some value =>
    refine Or.inl ?_
    by_contra hne
    rw [child?_eq_some_iff.2 ⟨hget, fun hnull => hne (hnull ▸ rfl)⟩] at h
    cases h

/-- A part of a value of a tree: the trail of the value, and the part. -/
abbrev Part := List Selector × Field

/-- The parts of an occurrence in some fields. -/
def Occurrence.parts (o : Occurrence) (names : List String) (part : Part) : Prop :=
  part.1 = o.trail ∧ part.2.name ∈ names

/-- The part that a violation is about. -/
def Violation.part? (w : Violation) : Option Part :=
  w.fault.part?.map fun field => (w.owner.trail, field)

namespace Steps

/-- The parts about which some steps report faults, in order. -/
def parts (steps : List Step) : List Part := (reports steps).filterMap Violation.part?

theorem parts_append (a b : List Step) : parts (a ++ b) = parts a ++ parts b := by
  rw [parts, reports_append, List.filterMap_append]
  rfl

/-- Steps whose faults hold and are about parts in some region, no two of them about the
    same part. -/
structure Reliable (strict : Prop) (region : Part → Prop) (steps : List Step) : Prop where
  holds : ∀ w ∈ reports steps, w.fault.Holds strict w.owner.value
  nodup : (parts steps).Nodup
  region : ∀ part ∈ parts steps, region part

/-- Steps that report no fault about a part. -/
def Partless (steps : List Step) : Prop := ∀ w ∈ reports steps, w.fault.part? = none

variable {strict : Prop} {region region' : Part → Prop} {o : Occurrence} {a b : List Step}

/-! ### Steps without faults about parts -/

@[simp] theorem partless_nil : Partless [] := fun _ h => nomatch h

theorem Partless.append (ha : Partless a) (hb : Partless b) : Partless (a ++ b) := by
  intro w hw
  rw [reports_append] at hw
  rcases List.mem_append.1 hw with hw | hw
  · exact ha w hw
  · exact hb w hw

theorem partless_flatMap {α : Type} {l : List α} {f : α → List Step}
    (h : ∀ x ∈ l, Partless (f x)) : Partless (l.flatMap f) := by
  intro w hw
  rw [reports_flatMap, List.mem_flatMap] at hw
  obtain ⟨x, hx, hw⟩ := hw
  exact h x hx w hw

theorem partless_visit {role : Role} {scope : Scope} {c : Occurrence} :
    Partless [.visit role scope c] := fun _ h => nomatch h

theorem partless_fault {f : Fault} (hf : f.part? = none) : Partless (fault o f) := by
  intro w hw
  rw [reports_fault, List.mem_singleton] at hw
  exact hw ▸ hf

theorem partless_faultIf {test : Bool} {f : Fault} (hf : f.part? = none) :
    Partless (faultIf test o f) := by
  cases test with
  | false => exact partless_nil
  | true => exact partless_fault hf

theorem partless_faults {g : Option Fault} (h : ∀ f ∈ g, f.part? = none) :
    Partless (g.toList.flatMap (fault o)) :=
  partless_flatMap fun f hf => partless_fault (h f (Option.mem_toList.1 hf))

theorem partless_location : Partless (location o) := by
  intro w hw
  rw [reports_location] at hw
  obtain ⟨f, hf, rfl⟩ := List.mem_map.1 hw
  have hlocation := isLocation_of_mem_locationFaults hf
  cases f with
  | missingEndpoint | invalidLine | invalidColumn | notString => rfl
  | _ => cases hlocation

theorem partless_binding {scope : Scope} {target : Option Tree} :
    Partless (binding o scope target) := by
  unfold binding
  split
  · split
    · exact partless_faultIf rfl
    · exact partless_nil
  · exact partless_nil

theorem Partless.parts_eq_nil (h : Partless a) : parts a = [] := by
  refine List.filterMap_eq_nil_iff.2 fun w hw => ?_
  rw [Violation.part?, h w hw]
  rfl

theorem Partless.reliable (h : Partless a) : Reliable strict region a where
  holds w hw := Fault.holds_of_part? (h w hw)
  nodup := by
    rw [h.parts_eq_nil]
    exact List.nodup_nil
  region part hpart := by
    rw [h.parts_eq_nil] at hpart
    cases hpart

/-! ### Steps one after the other -/

theorem Reliable.mono (h : Reliable strict region a)
    (hregion : ∀ part, region part → region' part) : Reliable strict region' a :=
  ⟨h.holds, h.nodup, fun part hpart => hregion part (h.region part hpart)⟩

/-- Steps may follow each other if they are about different parts. -/
theorem Reliable.append (ha : Reliable strict region a) (hb : Reliable strict region' b)
    (hapart : ∀ part, region part → ¬ region' part) :
    Reliable strict (fun part => region part ∨ region' part) (a ++ b) where
  holds w hw := by
    rw [reports_append] at hw
    rcases List.mem_append.1 hw with hw | hw
    · exact ha.holds w hw
    · exact hb.holds w hw
  nodup := by
    rw [parts_append]
    refine List.nodup_append.2 ⟨ha.nodup, hb.nodup, ?_⟩
    rintro part hpart _ hpart' rfl
    exact hapart part (ha.region part hpart) (hb.region part hpart')
  region part hpart := by
    rw [parts_append] at hpart
    rcases List.mem_append.1 hpart with hpart | hpart
    · exact Or.inl (ha.region part hpart)
    · exact Or.inr (hb.region part hpart)

theorem Reliable.append_partless (ha : Reliable strict region a) (hb : Partless b) :
    Reliable strict region (a ++ b) := by
  have hnone : Reliable strict (fun _ => False) b := hb.reliable
  refine (ha.append hnone fun _ _ h => h).mono fun part hpart => ?_
  exact hpart.resolve_right id

theorem Partless.append_reliable (ha : Partless a) (hb : Reliable strict region b) :
    Reliable strict region (a ++ b) := by
  have hnone : Reliable strict (fun _ => False) a := ha.reliable
  refine (hnone.append hb fun _ h => h.elim).mono fun part hpart => ?_
  exact hpart.resolve_left id

/-- Steps about different fields of one value. -/
theorem Reliable.join {names names' : List String} (ha : Reliable strict (o.parts names) a)
    (hb : Reliable strict (o.parts names') b) (hapart : ∀ name ∈ names, name ∉ names') :
    Reliable strict (o.parts (names ++ names')) (a ++ b) := by
  refine (ha.append hb ?_).mono ?_
  · rintro part ⟨-, hname⟩ ⟨-, hname'⟩
    exact hapart _ hname hname'
  · rintro part (⟨htrail, hname⟩ | ⟨htrail, hname⟩)
    · exact ⟨htrail, List.mem_append_left _ hname⟩
    · exact ⟨htrail, List.mem_append_right _ hname⟩

theorem Reliable.flatMap {α : Type} {l : List α} {f : α → List Step} {of : α → Part → Prop}
    (h : ∀ x ∈ l, Reliable strict (of x) (f x))
    (hapart : l.Pairwise fun x y => ∀ part, of x part → ¬ of y part) :
    Reliable strict (fun part => ∃ x ∈ l, of x part) (l.flatMap f) := by
  induction l with
  | nil => exact partless_nil.reliable
  | cons x l ih =>
    rw [List.pairwise_cons] at hapart
    have hrest := ih (fun y hy => h y (List.mem_cons_of_mem _ hy)) hapart.2
    rw [List.flatMap_cons]
    refine ((h x List.mem_cons_self).append hrest ?_).mono ?_
    · rintro part hx ⟨y, hy, hpart⟩
      exact hapart.1 y hy part hx hpart
    · rintro part (hx | ⟨y, hy, hpart⟩)
      · exact ⟨x, List.mem_cons_self, hx⟩
      · exact ⟨y, List.mem_cons_of_mem _ hy, hpart⟩

/-! ### The steps for one part -/

theorem reliable_fault {f : Fault} (hholds : f.Holds strict o.value)
    (hregion : ∀ field, f.part? = some field → region (o.trail, field)) :
    Reliable strict region (fault o f) := by
  cases hpart : f.part? with
  | none => exact (partless_fault hpart).reliable
  | some field =>
    have hparts : parts (fault o f) = [(o.trail, field)] := by
      simp [parts, Violation.part?, hpart]
    refine ⟨?_, ?_, ?_⟩
    · intro w hw
      rw [reports_fault, List.mem_singleton] at hw
      exact hw ▸ hholds
    · rw [hparts]
      exact List.pairwise_singleton _ _
    · intro part hmem
      rw [hparts, List.mem_singleton] at hmem
      exact hmem ▸ hregion field hpart

theorem reliable_faultIf {test : Bool} {f : Fault} (hholds : test = true → f.Holds strict o.value)
    (hregion : ∀ field, f.part? = some field → region (o.trail, field)) :
    Reliable strict region (faultIf test o f) := by
  cases test with
  | false => exact partless_nil.reliable
  | true => exact reliable_fault (hholds rfl) hregion

variable {scope : Scope} {name : String} {category : Category}

theorem mem_parts_named {field : Field} (h : some (Field.named name) = some field) :
    o.parts [name] (o.trail, field) := by
  cases h
  exact ⟨rfl, List.mem_singleton_self _⟩

/-- A child that is no node of its category is charged to its owner. -/
theorem reliable_present {field : Field} {c : Occurrence}
    (hpart : o.value.part? field = some c.value) :
    Reliable strict (fun part => part = (o.trail, field)) (present o field category scope c) := by
  refine Reliable.append_partless ?_ partless_visit
  split
  · next kind hkind =>
    refine reliable_faultIf (fun htest => ⟨c.value, hpart, hkind, ?_⟩) ?_
    · rwa [Bool.not_eq_true'] at htest
    · intro found hfound
      cases hfound
      rfl
  · exact partless_nil.reliable

theorem reliable_child {c : Occurrence} (h : o.child? name = some c) :
    Reliable strict (o.parts [name]) (present o (.named name) category scope c) := by
  have hpart : o.value.part? (.named name) = some c.value :=
    (Tree.child?_eq_some_iff.1 (Occurrence.child?_eq_some_iff.1 h).1).1
  refine (reliable_present hpart).mono ?_
  rintro part rfl
  exact mem_parts_named rfl

theorem reliable_missing (h : o.value.child? name = none) :
    Reliable strict (o.parts [name]) (fault o (.missing (.named name))) :=
  reliable_fault (Tree.holds_missing h) fun _ hfield => mem_parts_named hfield

theorem reliable_required :
    Reliable strict (o.parts [name]) (required o name category scope) := by
  unfold required
  split
  · next c hc => exact reliable_child hc
  · next hc => exact reliable_missing (Occurrence.child?_eq_none_iff.1 hc)

theorem reliable_optional :
    Reliable strict (o.parts [name]) (optional o name category scope) := by
  unfold optional
  split
  · next c hc => exact reliable_child hc
  · exact partless_nil.reliable

/-- Two elements of a list are different parts. -/
theorem reliable_elements {list : Tree} {values : List Tree} {holes : Bool}
    (hlist : o.value.child? name = some list) (hvalues : list.elements? = some values) :
    Reliable strict (o.parts [name]) (elements o name category holes scope values) := by
  have hindexed : values.zipIdx = o.value.indexed name := by
    simp [Tree.indexed, hlist, hvalues]
  have hget : o.value.get? name = some list := (Tree.child?_eq_some_iff.1 hlist).1
  have helement : ∀ p ∈ values.zipIdx,
      Reliable strict (fun part => part = (o.trail, Field.element name p.2))
        (element o name category holes scope p.1 p.2) := by
    rintro ⟨value, index⟩ hp
    have hpart : o.value.part? (.element name index) = some value := by
      have hvalue := List.mk_mem_zipIdx_iff_getElem?.1 hp
      show (o.value.get? name >>= Tree.elements? >>= (·[index]?)) = some value
      simp [hget, hvalues, hvalue]
    simp only [element]
    split
    · refine reliable_faultIf (fun _ => Or.inl hpart) ?_
      intro field hfield
      cases hfield
      rfl
    · exact reliable_present hpart
  have hapart : values.zipIdx.Pairwise fun p q => ∀ part : Part,
      part = (o.trail, Field.element name p.2) → ¬ part = (o.trail, Field.element name q.2) := by
    rw [hindexed]
    refine (Slot.pairwise_indexed o.value name).imp ?_
    rintro p q hne part rfl hpart
    exact hne (by simpa [Field.element] using hpart)
  refine (Reliable.flatMap helement hapart).mono ?_
  rintro part ⟨p, -, rfl⟩
  exact ⟨rfl, List.mem_singleton_self _⟩

theorem reliable_withList {steps : List Tree → List Step}
    (h : ∀ list values, o.value.child? name = some list → list.elements? = some values →
      Reliable strict (o.parts [name]) (steps values)) :
    Reliable strict (o.parts [name]) (withList o name steps) := by
  unfold withList
  split
  · next hlist => exact reliable_missing hlist
  · next list hlist =>
    split
    · next hvalues =>
      exact reliable_fault ⟨rfl, list, hlist, hvalues⟩ fun _ h => mem_parts_named h
    · next values hvalues => exact h list values hlist hvalues

theorem reliable_list : Reliable strict (o.parts [name]) (list o name category scope) :=
  reliable_withList fun _ _ hlist hvalues => reliable_elements hlist hvalues

theorem reliable_operator (family : OperatorFamily) :
    Reliable strict (o.parts ["operator"]) (operator o family) := by
  unfold operator
  split
  · next hnone =>
    refine reliable_fault (fun token htoken => ?_) fun _ h => mem_parts_named h
    rw [Tree.child?_eq_some_iff.2 ⟨htoken, nofun⟩] at hnone
    cases hnone
  · next token htoken =>
    refine reliable_faultIf (fun htest found hfound => ?_) fun _ h => mem_parts_named h
    rw [(Tree.child?_eq_some_iff.1 htoken).1] at hfound
    cases hfound
    rwa [Bool.not_eq_true'] at htest
  · next found hnot hfound =>
    refine reliable_fault (fun token htoken => ?_) fun _ h => mem_parts_named h
    rw [(Tree.child?_eq_some_iff.1 hfound).1] at htoken
    exact absurd (Option.some.inj htoken) (hnot token)

end Steps

/-! ## The rules -/

namespace Rule

open Steps

variable {strict : Prop} {o : Occurrence} {scope : Scope}

theorem identifierFault_holds {t : Tree} {inStrict : Bool} {f : Fault}
    (hkind : t.kind? = some .identifier)
    (hf : Identifier.fault? inStrict (t.child? "name") = some f) :
    f.Holds (inStrict = true) t ∧ ∀ field, f.part? = some field → field = .named "name" := by
  have hnamed : ∀ {word}, t.child? "name" = some (.string word) →
      t.identifierName? = some word := by
    intro word hword
    exact Tree.identifierName?_eq_some_iff.2 ⟨hkind, (Tree.child?_eq_some_iff.1 hword).1⟩
  unfold Identifier.fault? at hf
  split at hf
  · next hnone =>
    cases hf
    exact ⟨Tree.holds_missing hnone, fun field h => (Option.some.inj h).symm⟩
  · next word hword =>
    split at hf
    · next hname =>
      cases hf
      rw [Bool.not_eq_true'] at hname
      exact ⟨⟨hnamed hword, hname⟩, fun field h => (Option.some.inj h).symm⟩
    · split at hf
      · next hreserved =>
        cases hf
        refine ⟨⟨hnamed hword, ?_⟩, fun field h => (Option.some.inj h).symm⟩
        cases inStrict with
        | false => exact Or.inl hreserved
        | true => exact Or.inr ⟨rfl, hreserved⟩
      · cases hf
  · cases hf
    exact ⟨trivial, nofun⟩

theorem reliable_identifier (hkind : o.value.kind? = some .identifier) :
    Reliable (scope.strict = true) (o.parts ["name"]) (identifier o scope) := by
  unfold identifier
  cases hfault : Identifier.fault? scope.strict (o.value.child? "name") with
  | none => exact partless_nil.reliable
  | some f =>
    obtain ⟨hholds, hpart⟩ := identifierFault_holds hkind hfault
    show Reliable _ _ (fault o f ++ [])
    refine Reliable.append_partless (reliable_fault hholds fun field hfield => ?_) partless_nil
    rw [hpart field hfield]
    exact mem_parts_named rfl

theorem partless_literal : Partless (literal o) := by
  refine partless_faults fun f hf => ?_
  rcases literalFault_cases hf with rfl | ⟨found, rfl⟩ | rfl | rfl
  all_goals rfl

theorem reliable_operation (family : OperatorFamily) :
    Reliable strict (o.parts ["operator", "left", "right"]) (operation family o scope) :=
  ((reliable_operator family).join reliable_required (by decide)).join reliable_required
    (by decide)

theorem reliable_memberExpression :
    Reliable strict (o.parts ["object", "property"]) (memberExpression o scope) := by
  refine reliable_required.join (?_ : Reliable strict (o.parts ["property"]) _) (by decide)
  split
  · exact reliable_required
  · unfold memberName
    split
    · next hnone => exact reliable_missing (Occurrence.child?_eq_none_iff.1 hnone)
    · exact ((partless_faultIf rfl).append partless_location).reliable

theorem reliable_function (form : FunctionForm) :
    Reliable strict (o.parts ["id", "params", "body"]) (function form o scope) := by
  have hname : ∀ inner, Reliable strict (o.parts ["id"]) (functionName form o inner) := by
    intro inner
    refine Reliable.append_partless ?_ partless_binding
    cases form with
    | declaration => exact reliable_required
    | expression => exact reliable_optional
  have hparameters : ∀ inner, Reliable strict (o.parts ["params"]) (parameters o inner) := by
    intro inner
    refine reliable_withList fun _ params hlist hvalues => ?_
    refine ((reliable_elements hlist hvalues).append_partless
      (partless_flatMap fun _ _ => partless_binding)).append_partless ?_
    split
    · exact partless_flatMap fun _ _ => partless_fault rfl
    · exact partless_nil
  have hbody : ∀ inner, Reliable strict (o.parts ["body"]) (functionBody o scope inner) := by
    intro inner
    unfold functionBody
    split
    · next hnone => exact reliable_missing (Occurrence.child?_eq_none_iff.1 hnone)
    · next body hbody =>
      split
      · exact partless_visit.reliable
      · exact reliable_child hbody
  exact ((hname _).join (hparameters _) (by decide)).join (hbody _) (by decide)

theorem reliable_labelUse : Reliable strict (o.parts ["label"]) (labelUse o scope) := by
  refine reliable_optional.append_partless ?_
  split
  · exact partless_faultIf rfl
  · exact partless_nil

theorem reliable_labeledStatement :
    Reliable strict (o.parts ["label", "body"]) (labeledStatement o scope) := by
  refine reliable_required.join (?_ : Reliable strict (o.parts ["body"]) _) (by decide)
  split
  · exact (partless_faultIf rfl).append_reliable reliable_required
  · exact reliable_required

theorem reliable_catchClauses :
    Reliable strict (o.parts ["handlers", "handler"]) (catchClauses o scope) := by
  rw [catchClauses_eq]
  split
  · refine reliable_list.mono ?_
    rintro part ⟨htrail, hname⟩
    exact ⟨htrail, List.mem_append_left ["handler"] hname⟩
  · refine reliable_optional.mono ?_
    rintro part ⟨htrail, hname⟩
    exact ⟨htrail, List.mem_cons_of_mem _ hname⟩

theorem reliable_updateExpression :
    Reliable strict (o.parts ["operator", "argument"]) (updateExpression o scope) := by
  refine Reliable.append_partless (Reliable.append_partless
    ((reliable_operator _).join reliable_required (by decide)) partless_binding) ?_
  split
  · exact partless_nil
  · exact partless_nil
  · exact partless_fault rfl

/-! ### Properties -/

theorem reliable_property {p : Occurrence} {names : SeenNames} :
    Reliable strict (p.parts ["key", "value"]) (property p scope names) := by
  have hkey : Reliable strict (p.parts ["key"]) (propertyKey p) := by
    unfold propertyKey
    split
    · exact ((partless_faultIf rfl).append partless_location).reliable
    · next hnone => exact reliable_missing (Occurrence.child?_eq_none_iff.1 hnone)
  have haccessor : Partless (accessor p) := by
    unfold accessor
    split
    · exact partless_faultIf rfl
    · exact partless_faultIf rfl
    · exact partless_nil
  have hconflict : Partless (conflict p scope names) := by
    unfold conflict
    split
    · refine partless_faults fun f hf => ?_
      rcases seenFault_cases hf with rfl | rfl
      · rfl
      · rfl
    · exact partless_nil
  have hfirst : Partless (location p ++
      faultIf (PropertyKind.of? p.value).isNone p .invalidPropertyKind) :=
    partless_location.append (partless_faultIf rfl)
  exact (((hfirst.append_reliable hkey).join reliable_required (by decide)).append_partless
    haccessor).append_partless hconflict

/-- Two properties are different values. -/
theorem reliable_properties {values : List (Tree × Nat)} (names : SeenNames)
    (hindices : values.Pairwise fun p q => p.2 ≠ q.2) :
    Reliable strict (fun part => ∃ p ∈ values, part.1 = (o.element "properties" p.2 p.1).trail)
      (properties o scope names values) := by
  induction values generalizing names with
  | nil => exact partless_nil.reliable
  | cons p rest ih =>
    obtain ⟨value, index⟩ := p
    rw [List.pairwise_cons] at hindices
    have hrest : ∀ part : Part, (∃ p ∈ rest, part.1 = (o.element "properties" p.2 p.1).trail) →
        ∃ p ∈ (value, index) :: rest, part.1 = (o.element "properties" p.2 p.1).trail := by
      rintro part ⟨p, hp, hpart⟩
      exact ⟨p, List.mem_cons_of_mem _ hp, hpart⟩
    unfold properties
    split
    · refine (reliable_property.append (ih _ hindices.2) ?_).mono ?_
      · rintro part ⟨htrail, -⟩ ⟨p, hp, hpart⟩
        have hindex : index = p.2 := by simpa [Occurrence.element] using htrail.symm.trans hpart
        exact hindices.1 p hp hindex
      · rintro part (⟨htrail, -⟩ | hpart)
        · exact ⟨_, List.mem_cons_self, htrail⟩
        · exact hrest part hpart
    · exact (partless_fault rfl).append_reliable ((ih _ hindices.2).mono hrest)

theorem reliable_objectExpression :
    ∃ region, Reliable strict region (objectExpression o scope) := by
  unfold objectExpression withList
  split
  · next hlist => exact ⟨_, reliable_missing hlist⟩
  · next list hlist =>
    split
    · next hvalues =>
      exact ⟨_, reliable_fault ⟨rfl, list, hlist, hvalues⟩ fun _ h => mem_parts_named h⟩
    · next values hvalues =>
      have hindexed : values.zipIdx = o.value.indexed "properties" := by
        simp [Tree.indexed, hlist, hvalues]
      refine ⟨_, reliable_properties [] ?_⟩
      rw [hindexed]
      exact Slot.pairwise_indexed o.value "properties"

/-- **The rule of a kind is reliable**: what it says about the parts of a node is true, and
    it says no two things about one part. -/
theorem reliable_ofKind {kind : Kind} (hkind : o.value.kind? = some kind) :
    ∃ region, Reliable (scope.strict = true) region (ofKind kind o scope) := by
  cases kind with
  | program => exact ⟨_, reliable_withList fun _ _ hlist hvalues => reliable_elements hlist hvalues⟩
  | arrayExpression =>
    exact ⟨_, reliable_withList fun _ _ hlist hvalues => reliable_elements hlist hvalues⟩
  | assignmentExpression => exact ⟨_, (reliable_operation _).append_partless partless_binding⟩
  | binaryExpression | logicalExpression => exact ⟨_, reliable_operation _⟩
  | callExpression | newExpression => exact ⟨_, reliable_required.join reliable_list (by decide)⟩
  | conditionalExpression =>
    exact ⟨_, (reliable_required.join reliable_required (by decide)).join reliable_required
      (by decide)⟩
  | functionExpression | functionDeclaration => exact ⟨_, reliable_function _⟩
  | identifier => exact ⟨_, reliable_identifier hkind⟩
  | literal => exact ⟨fun _ => False, partless_literal.reliable⟩
  | memberExpression => exact ⟨_, reliable_memberExpression⟩
  | objectExpression => exact reliable_objectExpression
  | sequenceExpression =>
    exact ⟨_, reliable_withList fun _ _ hlist hvalues =>
      (partless_faultIf rfl).append_reliable (reliable_elements hlist hvalues)⟩
  | thisExpression | debuggerStatement | emptyStatement =>
    exact ⟨fun _ => False, partless_nil.reliable⟩
  | unaryExpression =>
    exact ⟨_, ((reliable_operator _).join reliable_required (by decide)).append_partless
      (partless_faultIf rfl)⟩
  | updateExpression => exact ⟨_, reliable_updateExpression⟩
  | blockStatement => exact ⟨_, reliable_list⟩
  | breakStatement | continueStatement =>
    exact ⟨_, (partless_faultIf rfl).append_reliable reliable_labelUse⟩
  | doWhileStatement | whileStatement =>
    exact ⟨_, reliable_required.join reliable_required (by decide)⟩
  | expressionStatement | throwStatement => exact ⟨_, reliable_required⟩
  | forInStatement =>
    exact ⟨_, ((reliable_required.append_partless partless_binding).join reliable_required
      (by decide)).join reliable_required (by decide)⟩
  | forStatement =>
    exact ⟨_, ((reliable_optional.join reliable_optional (by decide)).join reliable_optional
      (by decide)).join reliable_required (by decide)⟩
  | ifStatement =>
    exact ⟨_, ((reliable_required.join reliable_required (by decide)).join reliable_optional
      (by decide)).append_partless (partless_faultIf rfl)⟩
  | labeledStatement => exact ⟨_, reliable_labeledStatement⟩
  | returnStatement => exact ⟨_, (partless_faultIf rfl).append_reliable reliable_optional⟩
  | switchStatement =>
    refine ⟨_, reliable_required.join (reliable_withList fun _ _ hlist hvalues => ?_) (by decide)⟩
    exact (reliable_elements hlist hvalues).append_partless
      (partless_flatMap fun _ _ => partless_fault rfl)
  | tryStatement =>
    exact ⟨_, ((reliable_required.join reliable_catchClauses (by decide)).join reliable_optional
      (by decide)).append_partless (partless_faultIf rfl)⟩
  | variableDeclaration =>
    exact ⟨_, (partless_faultIf rfl).append_reliable (reliable_withList fun _ _ hlist hvalues =>
      (reliable_elements hlist hvalues).append_partless (partless_faultIf rfl))⟩
  | withStatement =>
    exact ⟨_, ((partless_faultIf rfl).append_reliable reliable_required).join reliable_required
      (by decide)⟩
  | catchClause =>
    exact ⟨_, (reliable_required.append_partless partless_binding).join reliable_required
      (by decide)⟩
  | switchCase => exact ⟨_, reliable_optional.join reliable_list (by decide)⟩
  | variableDeclarator =>
    exact ⟨_, (reliable_required.append_partless partless_binding).join reliable_optional
      (by decide)⟩

end Rule

/-- What is reported at a visited node is reliable. -/
theorem Visit.reliable {v : Visit} {kind : Kind} (hkind : v.occurrence.value.kind? = some kind) :
    ∃ region, Steps.Reliable (v.scope.strict = true) region v.steps := by
  rw [steps_of_kind hkind]
  cases v.role with
  | node =>
    obtain ⟨region, hregion⟩ := Rule.reliable_ofKind hkind
    exact ⟨region, Steps.partless_location.append_reliable hregion⟩
  | functionBody => exact ⟨_, Steps.partless_location.append_reliable Steps.reliable_list⟩

end ScriptTree
