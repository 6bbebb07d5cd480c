/-
  The order of properties in an object literal.

  The rule of a literal goes through its properties in order, and which of them it reports
  depends on the order.  Whether it reports any does not: two properties of one name can stand
  beside each other in both orders or in none.

  * `Tree.Compatible`: two properties that can; `Rule.clash?_eq_none_iff`: a property is not
    reported beside those before it iff it is compatible with each of them.
  * `Rule.quiet_properties`: nothing is wrong with some properties iff nothing is wrong with any
    of them by itself, and they are compatible two by two.
  * `Tree.replace`: a tree with another value at a place; `Edits.permuted`: the properties of
    object literals are permuted.
  * `propertyOrder_irrelevant`: a tree is valid before this iff it is valid after it.
-/
import ScriptTree.Proofs.Conflicts
import ScriptTree.Proofs.Indifference

namespace ScriptTree

/-! ## Two properties -/

theorem PropertyKind.Clash.symm {a b : PropertyKind} (h : a.Clash b) : b.Clash a := by
  unfold Clash at *
  cases a <;> cases b <;> simp_all

/-- Two properties that can stand in one literal: if they share a name, their kinds do not clash,
    and in strict code they are not both data properties. -/
def Tree.Compatible (strict : Bool) (a b : Tree) : Prop :=
  ∀ name kind other, a.Defines name kind → b.Defines name other →
    ¬ kind.Clash other ∧ ¬ (kind = .init ∧ other = .init ∧ strict = true)

theorem Tree.Compatible.symm {strict : Bool} {a b : Tree} (h : Compatible strict a b) :
    Compatible strict b a := by
  intro name kind other hb ha
  obtain ⟨hclash, hdata⟩ := h name other kind ha hb
  exact ⟨fun h => hclash h.symm, fun ⟨hkind, hother, hstrict⟩ => hdata ⟨hother, hkind, hstrict⟩⟩

theorem Seen.fault?_eq_none_iff {s : Seen} {strict : Bool} {kind : PropertyKind} {key : String} :
    s.fault? strict kind key = none ↔ ∀ earlier, s.has earlier = true →
      ¬ earlier.Clash kind ∧ ¬ (earlier = .init ∧ kind = .init ∧ strict = true) := by
  have hconflicts : s.conflicts kind = false ↔
      ∀ earlier, s.has earlier = true → ¬ earlier.Clash kind := by
    rw [← Bool.not_eq_true, conflicts_iff]
    push Not
    rfl
  have hrepeated : ¬ (kind = .init ∧ s.init = true ∧ strict = true) ↔
      ∀ earlier, s.has earlier = true →
        ¬ (earlier = .init ∧ kind = .init ∧ strict = true) := by
    constructor
    · rintro h earlier hhas ⟨rfl, hkind, hstrict⟩
      exact h ⟨hkind, hhas, hstrict⟩
    · rintro h ⟨hkind, hhas, hstrict⟩
      exact h .init hhas ⟨rfl, hkind, hstrict⟩
  rw [forall₂_and, ← hconflicts, ← hrepeated, fault?]
  cases s.conflicts kind with
  | true => simp
  | false => simp

namespace Rule

open Steps

/-- **A property is not reported beside those before it iff it is compatible with each.** -/
theorem clash?_eq_none_iff {strict : Bool} {before : List Tree} {property : Tree} :
    clash? strict (before.foldl remember []) property = none ↔
      ∀ earlier ∈ before, Tree.Compatible strict earlier property := by
  cases hsignature : signature? property with
  | none =>
    rw [clash?, hsignature]
    refine ⟨fun _ earlier _ name kind other _ hdefines => ?_, fun _ => rfl⟩
    cases (signature?_eq_some_iff.2 hdefines).symm.trans hsignature
  | some signature =>
    obtain ⟨key, kind⟩ := signature
    have hdefines := signature?_eq_some_iff.1 hsignature
    have hclash : clash? strict (before.foldl remember []) property =
        ((before.foldl remember []).of key).fault? strict kind key := by
      rw [clash?, hsignature]
      rfl
    rw [hclash, Seen.fault?_eq_none_iff]
    constructor
    · intro h earlier hmem name kind' other hearlier hproperty
      cases (signature?_eq_some_iff.2 hproperty).symm.trans hsignature
      exact h kind' ((has_foldl_remember before).2 (Or.inr ⟨earlier, hmem, hearlier⟩))
    · intro h kind' hhas
      rcases (has_foldl_remember before).1 hhas with hnothing | ⟨earlier, hmem, hearlier⟩
      · cases kind' <;> cases hnothing
      · exact h earlier hmem key kind' kind hearlier hdefines

end Rule

/-! ## Properties in a literal -/

/-- Nothing is reported by some steps, nor at any value that they visit. -/
def Steps.Quiet (steps : List Step) : Prop := steps.flatMap Step.violations = []

theorem Steps.quiet_append {a b : List Step} : Quiet (a ++ b) ↔ Quiet a ∧ Quiet b := by
  rw [Quiet, List.flatMap_append, List.append_eq_nil_iff]
  rfl

theorem Steps.not_quiet_fault {o : Occurrence} {f : Fault} : ¬ Quiet (fault o f) := by
  intro h
  cases h

theorem Steps.quiet_location {o : Occurrence} :
    Quiet (location o) ↔ locationFaults o.value = [] := by
  rw [Quiet, location, List.flatMap_map]
  cases locationFaults o.value with
  | nil => exact ⟨fun _ => rfl, fun _ => rfl⟩
  | cons f rest => exact iff_of_false (by rintro ⟨⟩) (by rintro ⟨⟩)

namespace Rule

open Steps

variable {o o' p : Occurrence} {scope : Scope} {names : SeenNames}

/-- Nothing is wrong with a property by itself. -/
def SoundProperty (scope : Scope) (value : Tree) : Prop :=
  value.isObject = true ∧ Quiet (property ⟨[], value⟩ scope [])

theorem quiet_conflict :
    Quiet (conflict p scope names) ↔ clash? scope.strict names p.value = none := by
  unfold conflict clash?
  cases signature? p.value with
  | none => exact ⟨fun _ => rfl, fun _ => rfl⟩
  | some signature =>
    obtain ⟨key, kind⟩ := signature
    show Quiet (((names.of key).fault? scope.strict kind key).toList.flatMap (fault p)) ↔
      (names.of key).fault? scope.strict kind key = none
    cases (names.of key).fault? scope.strict kind key with
    | none => exact ⟨fun _ => rfl, fun _ => rfl⟩
    | some f =>
      refine iff_of_false (fun h => ?_) (fun h => ?_)
      · cases h
      · cases h

/-- The place of a property does not matter. -/
theorem quiet_property_at (trail : List Selector) (value : Tree) :
    Quiet (property ⟨trail, value⟩ scope names) ↔ Quiet (property ⟨[], value⟩ scope names) := by
  have hsteps : (property ⟨[], value⟩ scope names).filterMap (Relocation.step? ⟨trail, false⟩) =
      property ⟨trail, value⟩ scope names :=
    filterMap_property (m := ⟨trail, false⟩) (p := ⟨[], value⟩)
  have hmoved : (property ⟨trail, value⟩ scope names).flatMap Step.violations =
      ((property ⟨[], value⟩ scope names).flatMap Step.violations).map fun w =>
        ⟨⟨w.owner.trail ++ trail, w.owner.value⟩, w.fault⟩ := by
    rw [← hsteps, Steps.violations_filterMap fun role scope c _ =>
      violations_relocated _ role scope c, ← List.filterMap_eq_map]
    rfl
  rw [Quiet, hmoved, List.map_eq_nil_iff]
  rfl

/-- Of what is checked of a property, only the last step looks at other properties. -/
theorem quiet_property : Quiet (property p scope names) ↔
    Quiet (property ⟨[], p.value⟩ scope []) ∧ clash? scope.strict names p.value = none := by
  have hempty : ∀ earlier ∈ ([] : List Tree), Tree.Compatible scope.strict earlier p.value := by
    simp
  have hnone : clash? scope.strict [] p.value = none := clash?_eq_none_iff.2 hempty
  rw [← quiet_property_at p.trail]
  simp only [property, quiet_append, quiet_conflict, hnone, and_true]

/-- **Nothing is wrong with some properties iff nothing is wrong with any of them by itself, they
    are compatible two by two**, and each is with those before them. -/
theorem quiet_properties {before : List Tree} {values : List (Tree × Nat)} :
    Quiet (properties o scope (before.foldl remember []) values) ↔
      (∀ v ∈ values, SoundProperty scope v.1) ∧
      (∀ v ∈ values, ∀ earlier ∈ before, Tree.Compatible scope.strict earlier v.1) ∧
      values.Pairwise fun v w => Tree.Compatible scope.strict v.1 w.1 := by
  induction values generalizing before with
  | nil => simp [properties, Quiet]
  | cons first rest ih =>
    obtain ⟨value, index⟩ := first
    have hrest := @ih (before ++ [value])
    rw [List.foldl_append, List.foldl_cons, List.foldl_nil] at hrest
    rw [properties]
    split
    · next hobject =>
      have hself : SoundProperty scope value ↔ Quiet (property ⟨[], value⟩ scope []) :=
        and_iff_right hobject
      have hbeside : (∀ v ∈ rest, ∀ earlier ∈ before ++ [value],
            Tree.Compatible scope.strict earlier v.1) ↔
          (∀ v ∈ rest, ∀ earlier ∈ before, Tree.Compatible scope.strict earlier v.1) ∧
            ∀ v ∈ rest, Tree.Compatible scope.strict value v.1 := by
        simp only [List.forall_mem_append, List.forall_mem_singleton, forall₂_and]
      rw [quiet_append, quiet_property, hrest, clash?_eq_none_iff, hbeside, List.forall_mem_cons,
        List.forall_mem_cons, List.pairwise_cons, hself]
      constructor
      · rintro ⟨⟨hsound, hfirst⟩, hall, ⟨hbefore, hvalue⟩, hpairwise⟩
        exact ⟨⟨hsound, hall⟩, ⟨hfirst, hbefore⟩, hvalue, hpairwise⟩
      · rintro ⟨⟨hsound, hall⟩, ⟨hfirst, hbefore⟩, hvalue, hpairwise⟩
        exact ⟨⟨hsound, hfirst⟩, hall, ⟨hbefore, hvalue⟩, hpairwise⟩
    · next hobject =>
      rw [quiet_append]
      refine iff_of_false (fun h => not_quiet_fault h.1) (fun h => ?_)
      exact hobject (h.1 _ List.mem_cons_self).1

/-- What is wrong with the properties of a literal is wrong with one or with two of them. -/
theorem quiet_objectExpression {values : List Tree}
    (h : o.value.child? "properties" = some (.array values)) :
    Quiet (objectExpression o scope) ↔ (∀ value ∈ values, SoundProperty scope value) ∧
      values.Pairwise (Tree.Compatible scope.strict) := by
  have hsteps : objectExpression o scope =
      properties o scope ([].foldl remember []) values.zipIdx := by
    rw [objectExpression, withList, h]
    rfl
  rw [hsteps, quiet_properties]
  conv => rhs; rw [← List.zipIdx_map_fst 0 values, List.forall_mem_map, List.pairwise_map]
  -- before the first property there is none that it could clash with
  refine and_congr_right fun _ => and_iff_right fun v _ earlier hearlier => ?_
  cases hearlier

/-- **The order of the properties decides nothing**, as two of them are compatible in both orders
    or in none. -/
theorem quiet_objectExpression_of_perm {values permuted : List Tree}
    (hlist : o.value.child? "properties" = some (.array values))
    (hlist' : o'.value.child? "properties" = some (.array permuted))
    (h : values.Perm permuted) :
    Quiet (objectExpression o scope) ↔ Quiet (objectExpression o' scope) := by
  have hsound : (∀ value ∈ values, SoundProperty scope value) ↔
      ∀ value ∈ permuted, SoundProperty scope value :=
    forall_congr' fun value => by rw [h.mem_iff]
  rw [quiet_objectExpression hlist, quiet_objectExpression hlist', hsound,
    h.pairwise_iff Tree.Compatible.symm]

end Rule

/-! ## Properties are permuted -/

/-- The properties of object literals are permuted, and nothing else is changed. -/
def Edits.permuted : Edits where
  field _ t name old new := name = "properties" ∧ t.kind? = some .objectExpression ∧
    ∃ properties permuted, old = some (.array properties) ∧ new = some (.array permuted) ∧
      properties.Perm permuted
  listsClauses := false

theorem Edits.mild_permuted : permuted.Mild := fun _ _ _ _ _ hname h => absurd h.1 hname

/-- If the visits among the steps are quiet before and after the changes, so are the steps. -/
theorem Steps.Alike.quiet_iff {e : Edits} {t t' : Tree} {a b : List Step} (h : Alike e t t' a b)
    (hvisit : ∀ role scope c c', Step.visit role scope c ∈ a → Paired e t t' .node c c' →
      (role = .functionBody → c.value.kind? = some .blockStatement) →
      (violations role scope c = [] ↔ violations role scope c' = [])) :
    Quiet a ↔ Quiet b := by
  induction h with
  | nil => rfl
  | @cons step step' a b hstep _ ih =>
    have hrest := ih fun role scope c c' hc => hvisit role scope c c' (List.mem_cons_of_mem _ hc)
    rw [Quiet, List.flatMap_cons, List.append_eq_nil_iff, Quiet, List.flatMap_cons,
      List.append_eq_nil_iff]
    refine and_congr ?_ hrest
    cases hstep with
    | report => exact iff_of_false (by rintro ⟨⟩) (by rintro ⟨⟩)
    | visit hpaired hrole => exact hvisit _ _ _ _ List.mem_cons_self hpaired hrole

/-- The rule of a literal whose properties are permuted is quiet before iff it is after. -/
theorem quiet_rule_of_permuted {t t' : Tree} {o o' : Occurrence} {scope : Scope}
    (h : Paired .permuted t t' .node o o') {properties permuted : List Tree}
    (hold : o.value.get? "properties" = some (.array properties))
    (hnew : o'.value.get? "properties" = some (.array permuted))
    (hperm : properties.Perm permuted) :
    Steps.Quiet (rule .node scope o .objectExpression) ↔
      Steps.Quiet (rule .node scope o' .objectExpression) := by
  have hlist := Tree.child?_eq_some_iff.2 ⟨hold, by rintro ⟨⟩⟩
  have hlist' := Tree.child?_eq_some_iff.2 ⟨hnew, by rintro ⟨⟩⟩
  rw [rule, rule, Steps.quiet_append, Steps.quiet_append, Steps.quiet_location,
    Steps.quiet_location, h.edited.locationFaults_eq Edits.mild_permuted h.reads_loc]
  exact and_congr_right fun _ => Rule.quiet_objectExpression_of_perm hlist hlist' hperm

/-- The same values are quiet before and after the properties are permuted. -/
theorem violations_eq_nil_of_permuted {t t' : Tree} {o o' : Occurrence}
    (h : Paired .permuted t t' .node o o') (role : Role) (scope : Scope)
    (hrole : role = .functionBody → o.value.kind? = some .blockStatement) :
    violations role scope o = [] ↔ violations role scope o' = [] := by
  -- by the size of the value; every node but a literal whose own properties are permuted takes
  -- the same steps as before
  induction hn : sizeOf o.value using Nat.strongRecOn generalizing role scope o o' with
  | ind n ih =>
    subst hn
    have he := Edits.mild_permuted
    rw [violations_eq, violations_eq, ← h.edited.nodeKind_eq he]
    cases hnode : o.value.nodeKind with
    | error fault => exact iff_of_false (by rintro ⟨⟩) (by rintro ⟨⟩)
    | ok kind =>
      have hkind := Tree.nodeKind_eq_ok_iff.1 hnode
      have hblock : role = .functionBody → kind = .blockStatement := fun heq =>
        Option.some.inj (hkind.symm.trans (hrole heq))
      have halike : (kind = .objectExpression → Kept .permuted o o' "properties" .properties) →
          (Steps.Quiet (rule role scope o kind) ↔ Steps.Quiet (rule role scope o' kind)) := by
        intro hproperties
        refine (alike_rule he h scope hkind hblock hproperties).quiet_iff
          fun _ _ _ _ hc hpaired hrole => ?_
        exact ih _ (within_rule _ hc) hpaired _ _ hrole rfl
      by_cases hliteral : kind = .objectExpression
      · subst hliteral
        rcases h.edited.properties_rel hkind with
          ⟨-, -, properties, permuted, hold, hnew, hperm⟩ | hrel
        · obtain rfl : role = .node := by
            cases role with
            | node => rfl
            | functionBody => cases hblock rfl
          exact quiet_rule_of_permuted h hold hnew hperm
        · exact halike fun _ => ⟨hrel, Or.inl (by decide)⟩
      · exact halike fun heq => absurd heq hliteral

/-! ## A value at a place is replaced -/

namespace Tree

/-- An object or an array with another value behind a step. -/
def put (t : Tree) (selector : Selector) (new : Tree) : Tree :=
  match t, selector with
  | .object fields, .field name => .object (Fields.insert fields name new)
  | .array elements, .element index => .array (elements.set index new)
  | t, _ => t

/-- A tree with another value at a place, the last step to which comes first. -/
def replace (t : Tree) : List Selector → Tree → Tree
  | [], new => new
  | selector :: trail, new =>
    match t.at? trail with
    | some holder => t.replace trail (holder.put selector new)
    | none => t

variable {e : Edits} {p : Place} {t old new : Tree} {selector : Selector} {trail : List Selector}

theorem get?_put (ht : t.isObject = true) (name other : String) :
    (t.put (.field name) new).get? other = if other = name then some new else t.get? other := by
  cases t with
  | object fields =>
    split
    · next hname => exact hname ▸ Fields.lookup_insert_self ..
    · next hname => exact Fields.lookup_insert_of_ne _ _ hname
  | _ => cases ht

theorem select?_put (h : t.select? selector = some old) :
    (t.put selector new).select? selector = some new := by
  cases selector with
  | field name =>
    show (t.put (.field name) new).get? name = some new
    rw [get?_put (isObject_of_get? h), if_pos rfl]
  | element index =>
    cases t with
    | array elements =>
      obtain ⟨hindex, -⟩ := List.getElem?_eq_some_iff.1 (show elements[index]? = some old from h)
      show (elements.set index new)[index]? = some new
      rw [List.getElem?_set_self hindex]
    | _ => cases h

/-- The value that is put at a place is there. -/
theorem at?_replace (h : t.at? trail = some old) : (t.replace trail new).at? trail = some new := by
  induction trail generalizing old new with
  | nil => rfl
  | cons selector trail ih =>
    obtain ⟨holder, hholder, hold⟩ := Option.bind_eq_some_iff.1 h
    simp only [replace, hholder]
    rw [at?, ih hholder]
    exact select?_put hold

/-- One field of an object is changed as it may be, or corresponds. -/
theorem Edited.put_field (ht : t.isObject = true) {name : String}
    (h : e.field p t name (t.get? name) (some new) ∨
      Option.Rel (Edited e (p.field t name)) (t.get? name) (some new)) :
    t.Edited e p (t.put (.field name) new) := by
  have ht' : (t.put (.field name) new).isObject = true := by
    cases t <;> first | rfl | cases ht
  refine .of_fields ht ht' fun other => ?_
  rw [get?_put ht]
  split
  · next hname => exact hname ▸ h
  · exact Or.inr (rel_refl ..)

/-- A change of a value that is held is a change of what holds it. -/
theorem Edited.put (h : t.select? selector = some old) (hedited : ∀ p, old.Edited e p new) :
    t.Edited e p (t.put selector new) := by
  cases selector with
  | field name =>
    have hget : t.get? name = some old := h
    exact put_field (isObject_of_get? hget) (Or.inr (hget ▸ .some (hedited _)))
  | element index =>
    cases t with
    | array elements =>
      have hget : elements[index]? = some old := h
      refine .array List.length_set.symm fun i x y hx hy => ?_
      rw [List.getElem?_set] at hy
      split at hy
      · next hindex =>
        subst hindex
        obtain rfl := Option.some.inj (hget.symm.trans hx)
        split at hy
        · cases hy
          exact hedited _
        · cases hy
      · cases hx.symm.trans hy
        exact refl ..
    | _ => cases h

/-- **A change of a value at a place is a change of the tree.** -/
theorem Edited.replace (h : t.at? trail = some old) (hedited : ∀ p, old.Edited e p new) :
    t.Edited e p (t.replace trail new) := by
  induction trail generalizing old new p with
  | nil =>
    cases h
    exact hedited p
  | cons selector trail ih =>
    obtain ⟨holder, hholder, hold⟩ := Option.bind_eq_some_iff.1 h
    simp only [Tree.replace, hholder]
    exact ih hholder fun p => Edited.put hold hedited

end Tree

/-! ## Validity -/

/-- A tree whose object literals have other orders of their properties is valid as before. -/
theorem Tree.Edited.isValid_of_permuted {t t' : Tree} (h : t.Edited .permuted .node t')
    (strict : Bool) : t'.isValid strict = t.isValid strict ∧
      t'.isValidExpression strict = t.isValidExpression strict := by
  have hkind : t.kind? = t'.kind? := h.kind?_eq Edits.mild_permuted rfl
  have hquiet : t.violations strict = [] ↔ t'.violations strict = [] :=
    violations_eq_nil_of_permuted (.root h) .node (.root strict) fun hrole => by cases hrole
  constructor
  · rw [Bool.eq_iff_iff, isValid_iff, isValid_iff, hkind, hquiet]
  · rw [Bool.eq_iff_iff, isValidExpression_iff, isValidExpression_iff, hkind, hquiet]

/-- An object literal. -/
def Tree.literalOf (properties : List Tree) : Tree :=
  .node .objectExpression [("properties", .array properties)]

/-- The property `a: a`. -/
def Tree.dataProperty : Tree :=
  .object [("kind", .string "init"), ("key", .named "a"), ("value", .named "a")]

/-- The property `get a() {}`. -/
def Tree.getterProperty : Tree :=
  .object [("kind", .string "get"), ("key", .named "a"), ("value", .node .functionExpression
    [("params", .array []), ("body", .node .blockStatement [("body", .array [])])])]

/-- The property `set a(x) {}`. -/
def Tree.setterProperty : Tree :=
  .object [("kind", .string "set"), ("key", .named "a"), ("value", .node .functionExpression
    [("params", .array [.named "x"]), ("body", .node .blockStatement [("body", .array [])])])]

/-- **The order of properties does not matter for validity.**  When the properties of an object
    literal anywhere in a tree are replaced by a permutation of them, which then stands in their
    place, the tree is a valid program, or a valid expression, iff it was one before.  How many
    violations it has may depend on the order. -/
theorem propertyOrder_irrelevant :
    (∀ (strict : Bool) (t literal : Tree) (trail : List Selector) (properties permuted : List Tree),
      t.at? trail = some literal → literal.kind? = some .objectExpression →
      literal.get? "properties" = some (.array properties) → properties.Perm permuted →
      let t' := t.replace (.field "properties" :: trail) (.array permuted)
      t'.at? (.field "properties" :: trail) = some (.array permuted) ∧
        t'.isValid strict = t.isValid strict ∧
        t'.isValidExpression strict = t.isValidExpression strict) ∧
    ∃ properties permuted : List Tree, properties.Perm permuted ∧
      ((Tree.literalOf properties).violations false).length ≠
        ((Tree.literalOf permuted).violations false).length := by
  constructor
  · intro strict t literal trail properties permuted hliteral hkind hproperties hperm
    have hpermuted : ∀ p, literal.Edited .permuted p (literal.put (.field "properties")
        (.array permuted)) := fun p =>
      .put_field (Tree.isObject_of_kind? hkind)
        (Or.inl ⟨rfl, hkind, properties, permuted, hproperties, rfl, hperm⟩)
    have hlist : t.at? (.field "properties" :: trail) = some (.array properties) := by
      rw [Tree.at?, hliteral]
      exact hproperties
    have hreplace : t.replace (.field "properties" :: trail) (.array permuted) =
        t.replace trail (literal.put (.field "properties") (.array permuted)) := by
      simp only [Tree.replace, hliteral]
    refine ⟨Tree.at?_replace hlist, ?_⟩
    rw [hreplace]
    exact (Tree.Edited.replace hliteral hpermuted).isValid_of_permuted strict
  · exact ⟨[.dataProperty, .dataProperty] ++ [.getterProperty],
      [.getterProperty] ++ [.dataProperty, .dataProperty], List.perm_append_comm,
      by decide +kernel⟩

/-- In `({get a() {}, set a(x) {}})` the setter may as well come first. -/
theorem propertyOrder_irrelevant_accessors :
    ((Tree.program [.node .expressionStatement
        [("expression", .literalOf [.getterProperty, .setterProperty])]]).replace
      [.field "properties", .field "expression", .element 0, .field "body"]
      (.array [.setterProperty, .getterProperty])).isValid true = true :=
  (propertyOrder_irrelevant.1 true _ _ _ _ _ rfl rfl rfl (.swap ..)).2.1.trans (by decide +kernel)

end ScriptTree
