/-
  Properties of one name in an object literal.

  The rule of a literal goes through its properties in order and keeps, for each name, the
  kinds of properties that it has had.

  * `PropertyKind.Clash`: two kinds of properties that cannot share a name.
  * `Tree.Defines`: a property has a kind, and a key that gives it a name
    (`signature?_eq_some_iff`).
  * `Rule.has_foldl_remember`: what is kept of the properties so far is what they define.
  * `Steps.clashes`, `Rule.chargedAt_clashes`: what is reported of a property beside those
    before it.
  * `clashes_pairwise`: a property is charged iff it clashes with an earlier one, and in strict
    code also if it is the second data property of its name.
-/
import ScriptTree.Proofs.Strictness
import ScriptTree.Proofs.Tally

namespace ScriptTree

/-! ## Kinds -/

namespace PropertyKind

/-- Two kinds of properties that cannot share a name: one of them is a data property and the
    other is none, or both are getters, or both are setters. -/
def Clash (a b : PropertyKind) : Prop :=
  (a = .init ↔ b ≠ .init) ∨ (a = .get ∧ b = .get) ∨ (a = .set ∧ b = .set)

theorem ofName?_eq_some_iff {s : String} {kind : PropertyKind} :
    ofName? s = some kind ↔ s = kind.name := by
  constructor
  · intro h
    have hname := List.find?_some h
    exact (eq_of_beq hname).symm
  · rintro rfl
    cases kind <;> rfl

end PropertyKind

namespace Seen

variable {s : Seen} {kind : PropertyKind}

/-- Whether a name has had a property of a kind. -/
def has (s : Seen) : PropertyKind → Bool
  | .init => s.init
  | .get => s.get
  | .set => s.set

theorem has_add {other : PropertyKind} :
    (s.add kind).has other = true ↔ s.has other = true ∨ other = kind := by
  cases kind <;> cases other <;> simp [has, add]

/-- A property cannot stand beside those before it iff it clashes with one of their kinds. -/
theorem conflicts_iff :
    s.conflicts kind = true ↔ ∃ earlier, s.has earlier = true ∧ earlier.Clash kind := by
  constructor
  · intro h
    cases kind with
    | init =>
      rcases Bool.or_eq_true_iff.1 h with hget | hset
      · exact ⟨.get, hget, Or.inl (by decide)⟩
      · exact ⟨.set, hset, Or.inl (by decide)⟩
    | get =>
      rcases Bool.or_eq_true_iff.1 h with hinit | hget
      · exact ⟨.init, hinit, Or.inl (by decide)⟩
      · exact ⟨.get, hget, Or.inr (Or.inl ⟨rfl, rfl⟩)⟩
    | set =>
      rcases Bool.or_eq_true_iff.1 h with hinit | hset
      · exact ⟨.init, hinit, Or.inl (by decide)⟩
      · exact ⟨.set, hset, Or.inr (Or.inr ⟨rfl, rfl⟩)⟩
  · rintro ⟨earlier, hhas, hclash⟩
    cases earlier <;> cases kind <;> simp_all [PropertyKind.Clash, has, conflicts]

end Seen

/-! ## Names -/

/-- The name that a key gives a property.  An identifier gives its own name, which may be a
    reserved word, and a literal gives its string, or its number as a text. -/
inductive Tree.KeyName (key : Tree) : String → Prop
  | identifier {name} : key.kind? = some .identifier → key.get? "name" = some (.string name) →
      Name.isName name = true → KeyName key name
  | string {name} : key.kind? = some .literal → key.get? "value" = some (.string name) →
      KeyName key name
  | number {x} : key.kind? = some .literal → key.get? "value" = some (.number x) →
      x.isNaN = false → x.negative = false → KeyName key (numberName x)

/-- A property has a kind, and a key that gives it a name. -/
structure Tree.Defines (property : Tree) (name : String) (kind : PropertyKind) : Prop where
  kind_eq : property.get? "kind" = some (.string kind.name)
  key_name : ∃ key, property.child? "key" = some key ∧ key.KeyName name

theorem Literal.numberFault?_eq_none_iff {x : Double} :
    Literal.numberFault? x = none ↔ x.isNaN = false ∧ x.negative = false := by
  unfold Literal.numberFault?
  cases x.isNaN <;> cases x.negative <;> simp

theorem propertyName?_eq_some_iff {key : Tree} {name : String} :
    propertyName? key = some name ↔ key.KeyName name := by
  constructor
  · intro h
    unfold propertyName? at h
    split at h
    · next hkind =>
      obtain ⟨hname, hvalid⟩ := Option.filter_eq_some_iff.1 h
      obtain ⟨value, hvalue, hstring⟩ := Option.bind_eq_some_iff.1 hname
      cases value <;> cases hstring
      exact .identifier hkind hvalue hvalid
    · next hkind =>
      obtain ⟨value, hvalue, hname⟩ := Option.bind_eq_some_iff.1 h
      cases value with
      | string s =>
        cases hname
        exact .string hkind hvalue
      | number x =>
        rw [show literalName? (.number x) = if (Literal.numberFault? x).isNone then
          some (numberName x) else none from rfl] at hname
        split at hname
        · next hfault =>
          cases hname
          obtain ⟨hnan, hnegative⟩ :=
            Literal.numberFault?_eq_none_iff.1 (Option.isNone_iff_eq_none.1 hfault)
          exact .number hkind hvalue hnan hnegative
        · cases hname
      | _ => cases hname
    · cases h
  · intro h
    cases h with
    | identifier hkind hvalue hvalid =>
      rw [propertyName?, hkind, hvalue]
      exact Option.filter_eq_some_iff.2 ⟨rfl, hvalid⟩
    | string hkind hvalue =>
      rw [propertyName?, hkind, hvalue]
      rfl
    | number hkind hvalue hnan hnegative =>
      have hfault := Literal.numberFault?_eq_none_iff.2 ⟨hnan, hnegative⟩
      rw [propertyName?, hkind, hvalue]
      show (if (Literal.numberFault? _).isNone then _ else _) = _
      rw [hfault]
      rfl

theorem PropertyKind.of?_eq_some_iff {property : Tree} {kind : PropertyKind} :
    PropertyKind.of? property = some kind ↔ property.get? "kind" = some (.string kind.name) := by
  constructor
  · intro h
    obtain ⟨name, hname, hkind⟩ := Option.bind_eq_some_iff.1 h
    obtain ⟨value, hvalue, hstring⟩ := Option.bind_eq_some_iff.1 hname
    cases value <;> cases hstring
    rw [hvalue, PropertyKind.ofName?_eq_some_iff.1 hkind]
  · intro h
    rw [PropertyKind.of?, h]
    exact PropertyKind.ofName?_eq_some_iff.2 rfl

theorem signature?_eq_some_iff {property : Tree} {name : String} {kind : PropertyKind} :
    signature? property = some (name, kind) ↔ property.Defines name kind := by
  constructor
  · intro h
    obtain ⟨found, hkind, h⟩ := Option.bind_eq_some_iff.1 h
    obtain ⟨key, hkey, h⟩ := Option.bind_eq_some_iff.1 h
    cases h
    obtain ⟨value, hvalue, hname⟩ := Option.bind_eq_some_iff.1 hkey
    exact ⟨PropertyKind.of?_eq_some_iff.1 hkind, value, hvalue, propertyName?_eq_some_iff.1 hname⟩
  · rintro ⟨hkind, key, hkey, hname⟩
    have hname : property.child? "key" >>= propertyName? = some name :=
      Option.bind_eq_some_iff.2 ⟨key, hkey, propertyName?_eq_some_iff.2 hname⟩
    rw [signature?, PropertyKind.of?_eq_some_iff.2 hkind, hname]
    rfl

/-! ## What the names have had -/

theorem SeenNames.has_add {names : SeenNames} {key name : String} {kind other : PropertyKind} :
    ((names.add key kind).of name).has other = true ↔
      (names.of name).has other = true ∨ (key, kind) = (name, other) := by
  by_cases hname : name = key
  · subst hname
    have hof : (names.add name kind).of name = (names.of name).add kind := by
      rw [SeenNames.of, SeenNames.add, Fields.lookup_insert_self]
      rfl
    rw [hof, Seen.has_add, Prod.mk.injEq, and_iff_right rfl, eq_comm (a := kind)]
  · have hof : (names.add key kind).of name = names.of name := by
      rw [SeenNames.of, SeenNames.add, Fields.lookup_insert_of_ne _ _ hname]
      rfl
    rw [hof, or_iff_left]
    intro heq
    exact hname (Prod.mk.inj heq).1.symm

namespace Rule

variable {names : SeenNames} {name : String} {kind : PropertyKind}

theorem has_remember {property : Tree} :
    ((remember names property).of name).has kind = true ↔
      (names.of name).has kind = true ∨ property.Defines name kind := by
  rw [← signature?_eq_some_iff]
  unfold remember
  cases hsignature : signature? property with
  | none => simp
  | some signature =>
    obtain ⟨key, found⟩ := signature
    rw [SeenNames.has_add, Option.some.injEq]

/-- **What is kept of the properties so far is what they define**, beside what was kept before. -/
theorem has_foldl_remember (before : List Tree) :
    ((before.foldl remember names).of name).has kind = true ↔
      (names.of name).has kind = true ∨ ∃ p ∈ before, p.Defines name kind := by
  induction before generalizing names with
  | nil => simp
  | cons property before ih =>
    rw [List.foldl_cons, ih, has_remember, List.exists_mem_cons_iff, or_assoc]

end Rule

/-! ## What is reported -/

/-- Whether a fault is about a property beside another of its name. -/
def Fault.isClash : Fault → Bool
  | conflictingProperty _ | duplicateProperty _ => true
  | _ => false

/-- Only object literals have properties. -/
theorem Fault.mayCharge_of_isClash {f : Fault} (h : f.isClash = true) (kind : Kind) :
    f.mayCharge kind = true ↔ kind = .objectExpression := by
  cases f with
  | conflictingProperty | duplicateProperty => exact beq_iff_eq
  | _ => cases h

namespace Steps

variable {o : Occurrence} {scope : Scope} {f : Fault}

/-- What some steps report about properties of one name, in order. -/
def clashes (steps : List Step) : List Violation :=
  (reports steps).filter fun w => w.fault.isClash

@[simp] theorem clashes_nil : clashes [] = [] := rfl

@[simp] theorem clashes_append (a b : List Step) : clashes (a ++ b) = clashes a ++ clashes b := by
  rw [clashes, reports_append, List.filter_append]
  rfl

/-- What has to do with no kind of node in particular has nothing to do with properties. -/
theorem clashes_of_charges {steps : List Step} (h : Charges .emptyStatement steps) :
    clashes steps = [] := by
  refine List.filter_eq_nil_iff.2 fun w hw hclash => ?_
  cases (Fault.mayCharge_of_isClash hclash _).1 (h w hw)

theorem clashes_fault (hf : f.isClash = false) : clashes (fault o f) = [] := by
  simp [clashes, hf]

theorem clashes_faultIf {test : Bool} (hf : f.isClash = false) :
    clashes (faultIf test o f) = [] := by
  cases test with
  | true => exact clashes_fault hf
  | false => rfl

end Steps

namespace Rule

open Steps

variable {o p : Occurrence} {scope : Scope} {names : SeenNames}

/-- The fault of a property beside those that gave the names what they have had. -/
def clash? (strict : Bool) (names : SeenNames) (property : Tree) : Option Fault :=
  signature? property >>= fun signature =>
    (names.of signature.1).fault? strict signature.2 signature.1

theorem clashes_conflict :
    clashes (conflict p scope names) = (clash? scope.strict names p.value).toList.map (⟨p, ·⟩) := by
  unfold conflict clash?
  cases signature? p.value with
  | none => rfl
  | some signature =>
    obtain ⟨key, kind⟩ := signature
    show clashes (((names.of key).fault? scope.strict kind key).toList.flatMap (fault p)) = _
    cases hfault : (names.of key).fault? scope.strict kind key with
    | none => simp [hfault]
    | some f =>
      rcases seenFault_cases hfault with rfl | rfl
      · simp [hfault, clashes, Fault.isClash]
      · simp [hfault, clashes, Fault.isClash]

/-- Of all that is checked of a property, only the last step looks at other properties. -/
theorem clashes_property :
    clashes (property p scope names) = (clash? scope.strict names p.value).toList.map (⟨p, ·⟩) := by
  have hkey : clashes (propertyKey p) = [] := by
    unfold propertyKey
    split
    · rw [clashes_append, clashes_faultIf rfl, clashes_of_charges charges_location]
      rfl
    · exact clashes_fault rfl
  have haccessor : clashes (accessor p) = [] := by
    unfold accessor
    split
    · exact clashes_faultIf rfl
    · exact clashes_faultIf rfl
    · rfl
  unfold property
  simp only [clashes_append, hkey, haccessor, clashes_faultIf (f := .invalidPropertyKind) rfl,
    clashes_of_charges charges_location, clashes_of_charges charges_required, List.nil_append]
  exact clashes_conflict

/-- What is no object defines nothing. -/
theorem signature?_of_not_isObject {value : Tree} (h : value.isObject = false) :
    signature? value = none := by
  cases hsignature : signature? value with
  | none => rfl
  | some signature =>
    have hkind := (signature?_eq_some_iff.1 hsignature).kind_eq
    rw [Tree.isObject_of_get? hkind] at h
    cases h

theorem clashes_properties_cons (value : Tree) (index : Nat) (rest : List (Tree × Nat)) :
    clashes (properties o scope names ((value, index) :: rest)) =
      (clash? scope.strict names value).toList.map (⟨o.element "properties" index value, ·⟩) ++
        clashes (properties o scope (remember names value) rest) := by
  rw [properties]
  split
  · rw [clashes_append, clashes_property]
    rfl
  · next hobject =>
    have hnone := signature?_of_not_isObject (Bool.eq_false_iff.2 hobject)
    rw [clashes_append, clashes_fault rfl, remember, clash?, hnone]
    rfl

theorem clashes_properties_append (before rest : List (Tree × Nat)) :
    clashes (properties o scope names (before ++ rest)) =
      clashes (properties o scope names before) ++
        clashes (properties o scope ((before.map Prod.fst).foldl remember names) rest) := by
  induction before generalizing names with
  | nil => rfl
  | cons first before ih =>
    obtain ⟨value, index⟩ := first
    rw [List.cons_append, clashes_properties_cons, clashes_properties_cons, ih, List.append_assoc]
    rfl

/-- What is reported about properties of one name is charged to properties. -/
theorem owner_of_mem_clashes {values : List (Tree × Nat)} {w : Violation}
    (h : w ∈ clashes (properties o scope names values)) :
    ∃ value index, (value, index) ∈ values ∧ w.owner = o.element "properties" index value := by
  induction values generalizing names with
  | nil => cases h
  | cons first rest ih =>
    obtain ⟨value, index⟩ := first
    rw [clashes_properties_cons] at h
    rcases List.mem_append.1 h with h | h
    · obtain ⟨f, -, rfl⟩ := List.mem_map.1 h
      exact ⟨value, index, List.mem_cons_self, rfl⟩
    · obtain ⟨value', index', hmem, howner⟩ := ih h
      exact ⟨value', index', List.mem_cons_of_mem _ hmem, howner⟩

theorem chargedAt_clashes_of_not_mem {values : List (Tree × Nat)} {index : Nat} {value : Tree}
    (h : ∀ found ∈ values, found.2 ≠ index) :
    chargedAt (o.element "properties" index value).trail
      (clashes (properties o scope names values)) = [] := by
  refine chargedAt_eq_nil_iff.2 fun w hw htrail => ?_
  obtain ⟨other, position, hmem, howner⟩ := owner_of_mem_clashes hw
  rw [howner] at htrail
  exact h _ hmem (Selector.element.inj (List.cons.inj htrail).1)

/-- **At a property is reported what it is beside the properties before it.** -/
theorem chargedAt_clashes {values : List Tree} {index : Nat} {value : Tree}
    (h : values[index]? = some value) :
    chargedAt (o.element "properties" index value).trail
        (clashes (properties o scope [] values.zipIdx)) =
      (clash? scope.strict ((values.take index).foldl remember []) value).toList := by
  obtain ⟨hindex, rfl⟩ := List.getElem?_eq_some_iff.1 h
  have hsplit : values.zipIdx = (values.take index).zipIdx ++
      ((values[index], index) :: (values.drop (index + 1)).zipIdx (index + 1)) := by
    conv => lhs; rw [← List.take_append_drop index values, List.drop_eq_getElem_cons hindex]
    rw [List.zipIdx_append, List.length_take_of_le (Nat.le_of_lt hindex), Nat.zero_add,
      List.zipIdx_cons]
  have hbefore : ∀ found ∈ (values.take index).zipIdx, found.2 ≠ index := by
    rintro ⟨found, position⟩ hmem rfl
    have hlt := (List.mem_zipIdx hmem).2.1
    rw [List.length_take] at hlt
    omega
  have hafter : ∀ found ∈ (values.drop (index + 1)).zipIdx (index + 1), found.2 ≠ index := by
    rintro ⟨found, position⟩ hmem rfl
    have hle := (List.mem_zipIdx hmem).1
    omega
  rw [hsplit, clashes_properties_append, clashes_properties_cons, chargedAt_append,
    chargedAt_append, chargedAt_clashes_of_not_mem hbefore, chargedAt_clashes_of_not_mem hafter,
    List.zipIdx_map_fst, List.nil_append, List.append_nil]
  cases clash? scope.strict ((values.take index).foldl remember []) values[index] with
  | none => rfl
  | some f => simp [chargedAt]

end Rule

/-! ## What a property is charged with -/

namespace Tree

/-- What is charged at a trail about properties of one name, in order. -/
def clashesAt (strict : Bool) (t : Tree) (trail : List Selector) : List Fault :=
  (t.chargedAt strict trail).filter Fault.isClash

/-- A property before an index has a name and a kind. -/
def DefinedBefore (properties : List Tree) (index : Nat) (name : String)
    (kind : PropertyKind) : Prop :=
  ∃ earlier < index, ∃ property, properties[earlier]? = some property ∧ property.Defines name kind

variable {strict : Bool} {t : Tree} {v : Visit} {properties : List Tree} {index : Nat}
  {property : Tree} {name : String} {kind : PropertyKind}

theorem definedBefore_iff : DefinedBefore properties index name kind ↔
    ((((properties.take index).foldl Rule.remember []).of name).has kind = true) := by
  have hnothing : (SeenNames.of [] name).has kind = false := by cases kind <;> rfl
  rw [Rule.has_foldl_remember, hnothing, or_iff_right Bool.false_ne_true]
  constructor
  · rintro ⟨earlier, hlt, p, hp, hdefines⟩
    refine ⟨p, List.mem_of_getElem? (i := earlier) ?_, hdefines⟩
    rw [List.getElem?_take_of_lt hlt, hp]
  · rintro ⟨p, hp, hdefines⟩
    obtain ⟨earlier, hget⟩ := List.mem_iff_getElem?.1 hp
    rw [List.getElem?_take] at hget
    split at hget
    · next hlt => exact ⟨earlier, hlt, p, hget, hdefines⟩
    · cases hget

/-- What the rule keeps of the properties before an index tells whether one of them clashes. -/
theorem conflicts_iff_definedBefore :
    (((properties.take index).foldl Rule.remember []).of name).conflicts kind = true ↔
      ∃ earlier, DefinedBefore properties index name earlier ∧ earlier.Clash kind := by
  rw [Seen.conflicts_iff]
  exact exists_congr fun earlier => and_congr_left' definedBefore_iff.symm

/-- The rule of an object literal reports nothing else about properties of one name. -/
theorem Visits.clashes_steps (h : t.Visits strict v)
    (hkind : v.occurrence.value.kind? = some .objectExpression) :
    Steps.clashes v.steps = Steps.clashes (Rule.objectExpression v.occurrence v.scope) := by
  rw [h.steps_eq hkind (by simp), Steps.clashes_append,
    Steps.clashes_of_charges Steps.charges_location]
  rfl

theorem Visits.clashesAt_property (h : t.Visits strict v)
    (hkind : v.occurrence.value.kind? = some .objectExpression)
    (hlist : v.occurrence.value.child? "properties" = some (.array properties))
    (hproperty : properties[index]? = some property) :
    t.clashesAt strict (v.occurrence.element "properties" index property).trail =
      (Rule.clash? v.scope.strict ((properties.take index).foldl Rule.remember [])
        property).toList := by
  have hattached : v.Attached (v.occurrence.element "properties" index property) :=
    ⟨h.role_eq_node hkind (by simp), _, hkind,
      .property (mem_indexed_iff.2 ⟨_, _, hlist, rfl, hproperty⟩)⟩
  have hrule : Rule.objectExpression v.occurrence v.scope =
      Rule.properties v.occurrence v.scope [] properties.zipIdx := by
    rw [Rule.objectExpression, Steps.withList, hlist]
    rfl
  rw [clashesAt, chargedAt_of_attached h hattached, filter_chargedAt,
    Visit.own_of_kind hkind, ← Rule.chargedAt_clashes hproperty, ← hrule, ← h.clashes_steps hkind]
  rfl

/-- Nothing but a property of an object literal is charged about properties of one name. -/
theorem Visits.owner_of_isClash {w : Violation} (h : t.Visits strict v) (hw : w ∈ v.own)
    (hclash : w.fault.isClash = true) :
    v.occurrence.value.kind? = some .objectExpression ∧ ∃ properties index property,
      v.occurrence.value.child? "properties" = some (.array properties) ∧
        properties[index]? = some property ∧
          w.owner = v.occurrence.element "properties" index property := by
  cases hnode : v.occurrence.value.nodeKind with
  | error fault =>
    rw [Visit.own, hnode, List.mem_singleton] at hw
    subst hw
    have hcharge := (Fault.mayCharge_of_isClash hclash .objectExpression).2 rfl
    rw [not_mayCharge_of_nodeKind hnode] at hcharge
    cases hcharge
  | ok kind =>
    have hkind := nodeKind_eq_ok_iff.1 hnode
    obtain rfl := (Fault.mayCharge_of_isClash hclash _).1 (Visit.mayCharge_of_mem_own hkind hw)
    refine ⟨hkind, ?_⟩
    rw [Visit.own_of_kind hkind] at hw
    have hmem : w ∈ Steps.clashes v.steps := List.mem_filter.2 ⟨hw, hclash⟩
    rw [h.clashes_steps hkind, Rule.objectExpression, Steps.withList] at hmem
    split at hmem
    · cases hmem
    · next list hlist =>
      split at hmem
      · cases hmem
      · next values hvalues =>
        cases list <;> cases hvalues
        obtain ⟨value, index, hvalue, howner⟩ := Rule.owner_of_mem_clashes hmem
        exact ⟨_, index, value, hlist, List.mk_mem_zipIdx_iff_getElem?.1 hvalue, howner⟩

end Tree

/-- **Properties of an object literal conflict pairwise.**  A property is charged once for a
    conflict iff an earlier one of its name is of a kind that clashes with its own.  Otherwise
    it is charged once as a duplicate iff the code is strict and both it and an earlier one of
    its name are data properties.  Nothing else is charged with either, and nothing that has no
    name or no kind. -/
theorem clashes_pairwise (strict : Bool) (t : Tree) :
    (∀ w ∈ t.violations strict, w.fault.isClash = true →
      ∃ v properties index property, t.Visits strict v ∧
        v.occurrence.value.kind? = some .objectExpression ∧
        v.occurrence.value.child? "properties" = some (.array properties) ∧
        properties[index]? = some property ∧
        w.owner = v.occurrence.element "properties" index property) ∧
    ∀ v, t.Visits strict v → v.occurrence.value.kind? = some .objectExpression →
      ∀ properties, v.occurrence.value.child? "properties" = some (.array properties) →
      ∀ index property, properties[index]? = some property →
        let charged := t.clashesAt strict (v.occurrence.element "properties" index property).trail
        (∀ name kind, property.Defines name kind →
          let clashing := ∃ earlier, Tree.DefinedBefore properties index name earlier ∧
            earlier.Clash kind
          let repeated := t.StrictAt strict v.trail ∧ kind = .init ∧
            Tree.DefinedBefore properties index name .init
          (clashing → charged = [.conflictingProperty name]) ∧
          (¬ clashing → repeated → charged = [.duplicateProperty name]) ∧
          (¬ clashing → ¬ repeated → charged = [])) ∧
        ((∀ name kind, ¬ property.Defines name kind) → charged = []) := by
  refine ⟨fun w hw hclash => ?_, fun v hv hkind properties hlist index property hproperty => ?_⟩
  · obtain ⟨v, hv, hown⟩ := Tree.mem_violations_iff.1 hw
    obtain ⟨hkind, properties, index, property, hrest⟩ := hv.owner_of_isClash hown hclash
    exact ⟨v, properties, index, property, hv, hkind, hrest⟩
  intro charged
  let seen := (properties.take index).foldl Rule.remember []
  have hcharged : charged = (Rule.clash? v.scope.strict seen property).toList :=
    hv.clashesAt_property hkind hlist hproperty
  refine ⟨fun name kind hdefines => ?_, fun hnone => ?_⟩
  · intro clashing repeated
    have hconflicts : (seen.of name).conflicts kind = true ↔ clashing :=
      Tree.conflicts_iff_definedBefore
    have hinit : (seen.of name).has .init = true ↔
        Tree.DefinedBefore properties index name .init := Tree.definedBefore_iff.symm
    have hrepeated : kind = .init ∧ (seen.of name).init = true ∧ v.scope.strict = true ↔
        repeated := by
      show kind = .init ∧ (seen.of name).has .init = true ∧ _ ↔ _
      rw [hinit, hv.strict_iff, ← and_assoc, and_comm]
    have hfault : Rule.clash? v.scope.strict seen property =
        (seen.of name).fault? v.scope.strict kind name := by
      rw [Rule.clash?, signature?_eq_some_iff.2 hdefines]
      rfl
    rw [hcharged, hfault, Seen.fault?]
    refine ⟨fun h => ?_, fun h h' => ?_, fun h h' => ?_⟩
    · rw [if_pos (hconflicts.2 h)]
      rfl
    · rw [if_neg fun hc => h (hconflicts.1 hc), if_pos (hrepeated.2 h')]
      rfl
    · rw [if_neg fun hc => h (hconflicts.1 hc), if_neg fun hr => h' (hrepeated.1 hr)]
      rfl
  · have hsignature : signature? property = none := by
      refine Option.eq_none_iff_forall_ne_some.2 fun signature hsome => ?_
      exact hnone _ _ (signature?_eq_some_iff.1 hsome)
    rw [hcharged, Rule.clash?, hsignature]
    rfl

/-- The object literal `({1: a, get "1"() {}, b: a, b: a})`. -/
def Tree.clashingLiteral : Tree :=
  let property (kind : PropertyKind) (key value : Tree) : Tree :=
    .object [("kind", .string kind.name), ("key", key), ("value", value)]
  let getter := Tree.node .functionExpression
    [("params", .array []), ("body", .node .blockStatement [("body", .array [])])]
  .node .objectExpression [("properties", .array
    [property .init (.node .literal [("value", .number .one)]) (named "a"),
     property .get (.node .literal [("value", .string "1")]) getter,
     property .init (named "b") (named "a"), property .init (named "b") (named "a")])]

/-- The getter has the name of the number before it, and in strict code the last property repeats
    the one before it. -/
theorem clashingLiteral_charged : ∃ v, Tree.clashingLiteral.Visits true v ∧
    Tree.clashingLiteral.clashesAt true (.element 1 :: .field "properties" :: v.trail) =
      [.conflictingProperty "1"] ∧
    Tree.clashingLiteral.clashesAt true (.element 3 :: .field "properties" :: v.trail) =
      [.duplicateProperty "b"] := by
  have hroot : Tree.clashingLiteral.Visits true (.root true Tree.clashingLiteral) := .refl
  have hnumber : numberName .one = "1" := by decide +kernel
  have hdata : (Tree.object [("kind", .string "init"), ("key", .named "b"),
      ("value", .named "a")]).Defines "b" .init :=
    ⟨rfl, _, rfl, .identifier rfl rfl (by decide +kernel)⟩
  refine ⟨_, hroot, ?_, ?_⟩
  · have hdefined := ((clashes_pairwise true _).2 _ hroot rfl _ rfl 1 _ rfl).1 "1" .get
      ⟨rfl, _, rfl, .string rfl rfl⟩
    refine hdefined.1 ⟨.init, ⟨0, by decide, _, rfl, rfl, _, rfl, ?_⟩, Or.inl (by decide)⟩
    exact hnumber ▸ .number rfl rfl rfl rfl
  · have hdefined := ((clashes_pairwise true _).2 _ hroot rfl _ rfl 3 _ rfl).1 "b" .init
      hdata
    refine hdefined.2.1 ?_ ⟨Or.inl rfl, rfl, 2, by decide, _, rfl, hdata⟩
    intro hclashing
    exact absurd (Tree.conflicts_iff_definedBefore.2 hclashing) (by decide +kernel)

end ScriptTree
