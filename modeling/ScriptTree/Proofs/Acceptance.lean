/-
  Acceptance guarantees the grammar.

  * `Rule.filled_of_clean`, `Rule.content_of_clean`: where the rule of a node reports
    nothing, the slots of the node are filled, and it has the content of its kind.
  * `Visit.WellFormed`: what the grammar says about a value that is visited.
  * `wellFormed_of_isValid`: in an accepted program that holds of all of them.
-/
import ScriptTree.Proofs.Content
import ScriptTree.Proofs.Path
import ScriptTree.Proofs.Reporter

namespace ScriptTree

namespace Rule

open Steps Grammar

variable {o : Occurrence} {scope : Scope}

/-! ## Functions, object literals and lists -/

theorem filled_of_clean_elements {name : String} {category : Category} {values : List Tree}
    (hvalues : o.value.child? name = some (.array values))
    (h : Clean (elements o name category false scope values)) :
    (Slot.list name category).Filled o.value :=
  ⟨values, hvalues, clean_elements_dense.1 h⟩

theorem filled_of_clean_function {form : FunctionForm} (h : Clean (function form o scope)) :
    ∀ s ∈ functionSlots form o.value, s.Filled o.value := by
  simp only [function, clean_append] at h
  obtain ⟨⟨hname, hparams⟩, hbody⟩ := h
  have hlist : (Slot.list "params" .expression).Filled o.value := by
    obtain ⟨params, hlist, hsteps⟩ := clean_withList.1 hparams
    simp only [clean_append] at hsteps
    obtain ⟨⟨helements, -⟩, -⟩ := hsteps
    exact filled_of_clean_elements hlist helements
  have hblock : (bodySlot form o.value).Filled o.value := by
    have hfilled : (Slot.one "body" .blockStatement).Filled o.value := by
      unfold functionBody at hbody
      split at hbody
      · exact absurd hbody not_clean_fault
      · next body hchild =>
        have hvalue := (Occurrence.child?_eq_some_iff.1 hchild).1
        split at hbody
        · next hkind => exact ⟨body.value, hvalue, _, hkind, rfl⟩
        · exact ⟨body.value, hvalue, clean_present.1 hbody⟩
    unfold bodySlot
    split <;> exact hfilled
  simp only [functionSlots, List.forall_mem_cons]
  refine ⟨?_, hlist, hblock, by simp⟩
  obtain ⟨hname, -⟩ := clean_append.1 hname
  cases form with
  | declaration => exact clean_required.1 hname
  | expression => exact clean_optional.1 hname

theorem isProperty_of_clean {p : Occurrence} {names : SeenNames}
    (hobject : p.value.isObject = true) (h : Clean (property p scope names)) :
    IsProperty p.value ∧ (Slot.one "value" .expression).Filled p.value := by
  simp only [property, clean_append, clean_faultIf] at h
  obtain ⟨⟨⟨⟨⟨-, hkind⟩, hkey⟩, hexpression⟩, haccessor⟩, -⟩ := h
  obtain ⟨value, hvalue, -⟩ : ∃ value, p.value.child? "value" = some value ∧
    value.IsA .expression := clean_required.1 hexpression
  refine ⟨⟨hobject, ?_, ?_, ?_, ?_⟩, clean_required.1 hexpression⟩
  · cases hof : PropertyKind.of? p.value with
    | none => simp [hof] at hkind
    | some kind => exact ⟨kind, rfl⟩
  · unfold propertyKey at hkey
    split at hkey
    · next key hchild =>
      obtain ⟨hnone, -⟩ := clean_append.1 hkey
      cases hname : propertyName? key.value with
      | none => simp [hname] at hnone
      | some name => exact ⟨key.value, name, (Occurrence.child?_eq_some_iff.1 hchild).1, hname⟩
    · exact absurd hkey not_clean_fault
  · intro hget
    simp only [accessor, hget, hvalue, clean_faultIf, Bool.not_eq_false'] at haccessor
    exact ⟨value, hvalue, haccessor⟩
  · intro hset
    simp only [accessor, hset, hvalue, clean_faultIf, Bool.not_eq_false'] at haccessor
    exact ⟨value, hvalue, haccessor⟩

/-- The properties of an object literal are properties with expressions as their values. -/
theorem properties_of_clean {values : List (Tree × Nat)} {names : SeenNames}
    (h : Clean (properties o scope names values)) :
    ∀ p ∈ values, IsProperty p.1 ∧ (Slot.one "value" .expression).Filled p.1 := by
  induction values generalizing names with
  | nil => exact fun _ h => nomatch h
  | cons p rest ih =>
    obtain ⟨p, index⟩ := p
    unfold properties at h
    split at h
    · next hobject =>
      obtain ⟨hproperty, hrest⟩ := clean_append.1 h
      exact List.forall_mem_cons.2 ⟨isProperty_of_clean hobject hproperty, ih hrest⟩
    · exact absurd (clean_append.1 h).1 not_clean_fault

/-- An object literal lists properties with expressions as their values. -/
theorem objectExpression_of_clean (h : Clean (objectExpression o scope)) :
    ∃ values, o.value.child? "properties" = some (.array values) ∧
      ∀ p ∈ values, IsProperty p ∧ (Slot.one "value" .expression).Filled p := by
  obtain ⟨values, hvalues, hsteps⟩ := clean_withList.1 h
  refine ⟨values, hvalues, fun p hp => ?_⟩
  obtain ⟨index, hindex⟩ := List.mem_iff_getElem?.1 hp
  exact properties_of_clean hsteps (p, index) (List.mk_mem_zipIdx_iff_getElem?.2 hindex)

theorem filled_of_clean_catchClauses (h : Clean (catchClauses o scope)) :
    (catchSlot o.value).Filled o.value := by
  rw [catchClauses_eq] at h
  unfold catchSlot
  split
  · next hlist =>
    rw [if_pos hlist] at h
    exact clean_list.1 h
  · next hnone =>
    rw [if_neg hnone] at h
    exact clean_optional.1 h

/-! ## The rules -/

/-- **Where a rule reports nothing, the slots of its node are filled.** -/
theorem filled_of_clean {kind : Kind} (h : Clean (ofKind kind o scope)) :
    ∀ s ∈ slotsOfKind o.value kind, s.Filled o.value := by
  cases kind with
  | program =>
    obtain ⟨body, hbody, hsteps⟩ := clean_withList.1 h
    exact List.forall_mem_singleton.2 (filled_of_clean_elements hbody hsteps)
  | arrayExpression =>
    obtain ⟨values, hvalues, hsteps⟩ := clean_withList.1 h
    refine List.forall_mem_singleton.2 ⟨values, hvalues, fun value hvalue hne => ?_⟩
    exact (clean_elements.1 hsteps value hvalue).resolve_left fun h => hne h.1
  | functionExpression | functionDeclaration => exact filled_of_clean_function h
  | memberExpression =>
    obtain ⟨hobject, hproperty⟩ := clean_append.1 h
    refine List.forall_mem_cons.2 ⟨clean_required.1 hobject, ?_⟩
    split
    · next hcomputed =>
      rw [if_pos hcomputed] at hproperty
      exact List.forall_mem_singleton.2 (clean_required.1 hproperty)
    · exact fun _ h => nomatch h
  | objectExpression =>
    obtain ⟨values, hvalues, h⟩ := objectExpression_of_clean h
    exact List.forall_mem_singleton.2 ⟨values, hvalues, fun p hp => (h p hp).2⟩
  | sequenceExpression =>
    obtain ⟨values, hvalues, hsteps⟩ := clean_withList.1 h
    exact List.forall_mem_singleton.2
      (filled_of_clean_elements hvalues (clean_append.1 hsteps).2)
  | labeledStatement =>
    obtain ⟨hlabel, hbody⟩ := clean_append.1 h
    have hfilled : (Slot.one "body" .statement).Filled o.value := by
      split at hbody
      · exact clean_required.1 (clean_append.1 hbody).2
      · exact clean_required.1 hbody
    exact List.forall_mem_cons.2 ⟨clean_required.1 hlabel, List.forall_mem_singleton.2 hfilled⟩
  | switchStatement =>
    obtain ⟨hdiscriminant, hlist⟩ := clean_append.1 h
    obtain ⟨cases, hcases, hsteps⟩ := clean_withList.1 hlist
    exact List.forall_mem_cons.2 ⟨clean_required.1 hdiscriminant, List.forall_mem_singleton.2
      (filled_of_clean_elements hcases (clean_append.1 hsteps).1)⟩
  | tryStatement =>
    simp only [ofKind, tryStatement, clean_append] at h
    obtain ⟨⟨⟨hblock, hclauses⟩, hfinalizer⟩, -⟩ := h
    exact List.forall_mem_cons.2 ⟨clean_required.1 hblock, List.forall_mem_cons.2
      ⟨filled_of_clean_catchClauses hclauses,
        List.forall_mem_singleton.2 (clean_optional.1 hfinalizer)⟩⟩
  | variableDeclaration =>
    obtain ⟨declarations, hlist, hsteps⟩ := clean_withList.1 (clean_append.1 h).2
    exact List.forall_mem_singleton.2
      (filled_of_clean_elements hlist (clean_append.1 hsteps).1)
  | _ =>
    simp only [ofKind, assignmentExpression, operation, callExpression, conditionalExpression,
      unaryExpression, updateExpression, blockStatement, breakStatement, continueStatement,
      labelUse, doWhileStatement, forInStatement, forStatement, whileStatement, loopBody,
      ifStatement, returnStatement, withStatement, catchClause, switchCase, variableDeclarator,
      clean_append, clean_required, clean_optional, clean_list] at h
    simp only [slotsOfKind, loopSlot, Slot.filled_behind, List.forall_mem_cons, List.not_mem_nil,
      false_imp_iff, implies_true, and_true] <;> tauto

theorem content_of_clean_identifier (h : Clean (identifier o scope)) :
    Content scope.strict o.value .identifier := by
  cases hname : o.value.child? "name" with
  | none => simp [identifier, Identifier.fault?, hname] at h
  | some value =>
    cases value with
    | string name =>
      refine ⟨name, hname, ?_⟩
      simp only [identifier, Identifier.fault?, hname] at h
      cases hlegal : Name.isName name with
      | false => simp [hlegal] at h
      | true =>
        cases hreserved : Name.isReserved scope.strict name with
        | false => exact ⟨rfl, rfl⟩
        | true => simp [hlegal, hreserved] at h
    | _ => simp [identifier, Identifier.fault?, hname] at h

theorem content_of_clean_literal (h : Clean (literal o)) :
    Content scope.strict o.value .literal := by
  cases hvalue : o.value.get? "value" with
  | none => simp [literal, Literal.fault?, hvalue] at h
  | some value =>
    refine ⟨value, hvalue, ?_⟩
    cases value with
    | number x =>
      simp only [literal, Literal.fault?, Literal.numberFault?, hvalue] at h
      cases hnan : x.isNaN with
      | true => simp [hnan] at h
      | false =>
        cases hnegative : x.negative with
        | true => simp [hnan, hnegative] at h
        | false => exact ⟨hnan, hnegative⟩
    | array | object => simp [literal, Literal.fault?, hvalue] at h
    | _ => trivial

theorem content_of_clean_memberExpression (h : Clean (memberExpression o scope)) :
    Content scope.strict o.value .memberExpression := by
  intro hcomputed
  obtain ⟨-, hname⟩ := clean_append.1 h
  rw [if_neg (by simp [hcomputed]), memberName] at hname
  split at hname
  · exact absurd hname not_clean_fault
  · next property hproperty =>
    simp only [clean_append, clean_faultIf, Bool.not_eq_false', Option.any_eq_true] at hname
    obtain ⟨⟨name, hidentifier, hlegal⟩, -⟩ := hname
    exact ⟨property.value, name, (Occurrence.child?_eq_some_iff.1 hproperty).1, hidentifier,
      hlegal⟩

theorem content_of_clean_updateExpression (h : Clean (updateExpression o scope)) :
    Content scope.strict o.value .updateExpression := by
  simp only [updateExpression, clean_append] at h
  obtain ⟨⟨⟨hoperator, -⟩, -⟩, hprefix⟩ := h
  refine ⟨clean_operator.1 hoperator, fun flag hflag => ?_⟩
  rw [hflag] at hprefix
  cases flag with
  | bool b => exact ⟨b, rfl⟩
  | null => exact absurd rfl (Tree.child?_eq_some_iff.1 hflag).2
  | _ => exact absurd hprefix not_clean_fault

theorem content_of_clean_variableDeclaration (h : Clean (variableDeclaration o scope)) :
    Content scope.strict o.value .variableDeclaration := by
  obtain ⟨hkind, hlist⟩ := clean_append.1 h
  constructor
  · rw [clean_faultIf, Bool.not_eq_false', hasDeclarationKind, Option.any_eq_true] at hkind
    obtain ⟨word, hword, hmem⟩ := hkind
    obtain ⟨value, hvalue, hstring⟩ := Option.bind_eq_some_iff.1 hword
    cases value with
    | string s =>
      obtain rfl := Option.some.inj hstring
      exact ⟨s, by simpa using hmem, hvalue⟩
    | _ => cases hstring
  · obtain ⟨declarations, hdeclarations, hsteps⟩ := clean_withList.1 hlist
    have hempty := clean_faultIf.1 (clean_append.1 hsteps).2
    cases declarations with
    | nil => cases hempty
    | cons first rest => exact ⟨first, rest, hdeclarations⟩

/-- In a list of cases, the default cases are those without a test. -/
theorem filter_isDefaultCase {cases : List Tree}
    (h : ∀ c ∈ cases, c.IsA .switchCase) :
    cases.filter isDefaultCase = cases.filter fun c => (c.child? "test").isNone := by
  refine List.filter_congr fun c hc => ?_
  obtain ⟨kind, hkind, hcontains⟩ := h c hc
  obtain rfl : kind = .switchCase := by simpa [Category.contains] using hcontains
  simp [isDefaultCase, hkind]

theorem content_of_clean_switchStatement (h : Clean (switchStatement o scope)) :
    Content scope.strict o.value .switchStatement := by
  obtain ⟨cases, hcases, hsteps⟩ := clean_withList.1 (clean_append.1 h).2
  obtain ⟨helements, hrepeated⟩ := clean_append.1 hsteps
  refine ⟨cases, hcases, ?_⟩
  rw [← filter_isDefaultCase (clean_elements_dense.1 helements)]
  have htail : (cases.filter isDefaultCase).tail = [] :=
    List.eq_nil_iff_forall_not_mem.2 fun c hc => not_clean_fault (clean_flatMap.1 hrepeated c hc)
  have hlength := congrArg List.length htail
  rw [List.length_tail, List.length_nil] at hlength
  omega

theorem content_of_clean_tryStatement (h : Clean (tryStatement o scope)) :
    Content scope.strict o.value .tryStatement := by
  simp only [tryStatement, clean_append, clean_faultIf] at h
  obtain ⟨⟨⟨-, hclauses⟩, -⟩, htest⟩ := h
  show _ ∨ _
  cases hfinalizer : o.value.child? "finalizer" with
  | some finalizer => exact Or.inl ⟨finalizer, rfl⟩
  | none =>
    have hhas : hasCatchClause o.value = true := by simpa [hfinalizer] using htest
    refine Or.inr ?_
    unfold hasCatchClause at hhas
    unfold catchClauses at hclauses
    cases hhandlers : o.value.child? "handlers" with
    | none =>
      rw [hhandlers] at hhas
      exact Or.inr ⟨rfl, Option.isSome_iff_exists.1 hhas⟩
    | some handlers =>
      rw [hhandlers] at hhas hclauses
      cases handlers with
      | array clauses =>
        cases clauses with
        | nil => cases hhas
        | cons first rest => exact Or.inl ⟨first, rest, rfl⟩
      | _ => exact absurd hclauses not_clean_fault

/-- **Where a rule reports nothing, its node has the content of its kind.** -/
theorem content_of_clean {kind : Kind} (h : Clean (ofKind kind o scope)) :
    Content scope.strict o.value kind := by
  cases kind with
  | identifier => exact content_of_clean_identifier h
  | literal => exact content_of_clean_literal h
  | memberExpression => exact content_of_clean_memberExpression h
  | updateExpression => exact content_of_clean_updateExpression h
  | variableDeclaration => exact content_of_clean_variableDeclaration h
  | switchStatement => exact content_of_clean_switchStatement h
  | tryStatement => exact content_of_clean_tryStatement h
  | assignmentExpression =>
    simp only [ofKind, assignmentExpression, operation, clean_append] at h
    obtain ⟨⟨⟨hoperator, -⟩, -⟩, -⟩ := h
    exact clean_operator.1 hoperator
  | binaryExpression | logicalExpression =>
    simp only [ofKind, operation, clean_append] at h
    obtain ⟨⟨hoperator, -⟩, -⟩ := h
    exact clean_operator.1 hoperator
  | unaryExpression =>
    simp only [ofKind, unaryExpression, clean_append] at h
    obtain ⟨⟨hoperator, -⟩, -⟩ := h
    exact clean_operator.1 hoperator
  | objectExpression =>
    obtain ⟨values, hvalues, h⟩ := objectExpression_of_clean h
    exact ⟨values, hvalues, fun p hp => (h p hp).1⟩
  | sequenceExpression =>
    obtain ⟨values, hvalues, hsteps⟩ := clean_withList.1 h
    have hlength := clean_faultIf.1 (clean_append.1 hsteps).1
    exact ⟨values, hvalues, Nat.not_lt.1 (of_decide_eq_false hlength)⟩
  | _ => trivial

end Rule

/-! ## Accepted trees -/

/-- What stands in a filled slot is of its category. -/
theorem Slot.Filled.isA {s : Slot} {o c : Occurrence} (h : s.Filled o.value)
    (hc : s.Holds o c) : c.value.IsA s.category := by
  unfold Slot.Filled at h
  rcases hc with ⟨hshape, hchild⟩ | ⟨hshape, hnull, hmem⟩ | ⟨hshape, hmem, hchild⟩
  · have hvalue := (Occurrence.child?_eq_some_iff.1 hchild).1
    rcases hshape with hshape | hshape
    · rw [hshape] at h
      obtain ⟨value, hfield, hisA⟩ := h
      obtain rfl := Option.some.inj (hvalue.symm.trans hfield)
      exact hisA
    · rw [hshape] at h
      exact h _ hvalue
  · obtain ⟨list, elements, hlist, helements, hindex⟩ := Tree.mem_indexed_iff.1 hmem
    have hvalue := List.mem_of_getElem? hindex
    rcases hshape with hshape | hshape
    · rw [hshape] at h
      obtain ⟨values, hfield, hall⟩ := h
      obtain rfl := Option.some.inj (hlist.symm.trans hfield)
      cases helements
      exact hall _ hvalue
    · rw [hshape] at h
      obtain ⟨values, hfield, hall⟩ := h
      obtain rfl := Option.some.inj (hlist.symm.trans hfield)
      cases helements
      exact hall _ hvalue hnull
  · obtain ⟨list, elements, hlist, helements, hindex⟩ := Tree.mem_indexed_iff.1 hmem
    rw [hshape] at h
    obtain ⟨values, hfield, hall⟩ := h
    obtain rfl := Option.some.inj (hlist.symm.trans hfield)
    cases helements
    obtain ⟨value, hvalue, hisA⟩ := hall _ (List.mem_of_getElem? hindex)
    obtain rfl := Option.some.inj ((Occurrence.child?_eq_some_iff.1 hchild).1.symm.trans hvalue)
    exact hisA

/-- Only the bodies of programs and functions ask for source elements. -/
theorem Grammar.of_sourceElement {role : Role} {t : Tree} {kind : Kind} :
    ∀ s ∈ Grammar.slots role t kind, s.category = .sourceElement →
      s.field = "body" ∧ s.shape = .list ∧ (role = .functionBody ∨ kind = .program) := by
  cases role with
  | functionBody => simp [slots, Slot.list]
  | node =>
    cases kind with
    | functionExpression | functionDeclaration =>
      simp only [slots, slotsOfKind, functionSlots, bodySlot]
      split <;> simp [Slot.one, Slot.maybe, Slot.list, Slot.behind]
    | memberExpression =>
      simp only [slots, slotsOfKind]
      split <;> simp [Slot.one]
    | tryStatement =>
      simp only [slots, slotsOfKind, catchSlot]
      split <;> simp [Slot.one, Slot.maybe, Slot.list]
    | _ => simp [slots, slotsOfKind, loopSlot, Slot.one, Slot.maybe, Slot.list, Slot.behind]

/-- What the grammar says about a value that is visited. -/
structure Visit.WellFormed (v : Visit) (kind : Kind) : Prop where
  isNode : v.occurrence.value.kind? = some kind
  filled : ∀ s ∈ Grammar.slots v.role v.occurrence.value kind, s.Filled v.occurrence.value
  content : Grammar.Content v.scope.strict v.occurrence.value kind
  located : Grammar.Located v.occurrence.value

namespace Tree

variable {strict : Bool} {t : Tree} {v w : Visit}

/-- In a tree without violations the steps at every visit are clean. -/
theorem clean_steps (h : t.violations strict = []) (hv : t.Visits strict v) :
    Steps.Clean v.steps := by
  obtain ⟨kind, hkind⟩ := exists_kind_of_violations_eq_nil h hv
  have hown := violations_eq_nil_iff.1 h v hv
  rw [Visit.own_of_kind hkind] at hown
  exact ⟨hown, fun w hw => exists_kind_of_violations_eq_nil h (hv.tail hw)⟩

/-- In a tree without violations every visit is well formed. -/
theorem exists_wellFormed (h : t.violations strict = []) (hv : t.Visits strict v) :
    ∃ kind, v.WellFormed kind := by
  obtain ⟨kind, hkind⟩ := exists_kind_of_violations_eq_nil h hv
  have hclean := clean_steps h hv
  rw [Visit.steps_of_kind hkind] at hclean
  obtain ⟨hlocation, hrule⟩ := Steps.clean_append.1 hclean
  cases hrole : v.role with
  | node =>
    rw [hrole] at hrule
    refine ⟨kind, hkind, ?_, Rule.content_of_clean hrule, Steps.located_of_clean hlocation⟩
    rw [hrole]
    exact Rule.filled_of_clean hrule
  | functionBody =>
    rw [hrole] at hrule
    obtain rfl := Option.some.inj (hkind.symm.trans (hv.kind_of_functionBody hrole))
    refine ⟨_, hkind, ?_, trivial, Steps.located_of_clean hlocation⟩
    rw [hrole]
    exact List.forall_mem_singleton.2 (Steps.clean_list.1 hrule)

/-- In a tree without violations, what is visited next stands in a slot that asks for it. -/
theorem exists_slot (h : t.violations strict = []) (hv : t.Visits strict v) (hw : w ∈ v.next) :
    ∃ kind s, v.occurrence.value.kind? = some kind ∧
      s ∈ Grammar.slots v.role v.occurrence.value kind ∧ s.Holds v.occurrence w.occurrence ∧
      w.occurrence.value.IsA s.category := by
  obtain ⟨kind, hwell⟩ := exists_wellFormed h hv
  obtain ⟨s, hs, hholds, -, -⟩ := Visit.exists_slot_of_mem_next hw
  rw [Visit.slots, hwell.isNode] at hs
  exact ⟨kind, s, hwell.isNode, hs, hholds, (hwell.filled s hs).isA hholds⟩

/-- A program is visited only as the root. -/
theorem eq_root_of_program (h : t.violations strict = []) (hv : t.Visits strict v)
    (hkind : v.occurrence.value.kind? = some .program) : v = .root strict t := by
  rcases hv.eq_root_or with rfl | ⟨u, hu, hnext⟩
  · rfl
  · obtain ⟨_, s, -, -, -, kind, hkind', hcontains⟩ := exists_slot h hu hnext
    obtain rfl := Option.some.inj (hkind.symm.trans hkind')
    cases hcategory : s.category <;> rw [hcategory] at hcontains <;> cases hcontains

/-- A function declaration stands directly in the body of the root or of a function. -/
theorem declaration_placed (h : t.violations strict = []) (hv : t.Visits strict v)
    (hkind : v.occurrence.value.kind? = some .functionDeclaration)
    (hroot : t.kind? ≠ some .functionDeclaration) :
    ∃ index above, v.trail = .element index :: .field "body" :: above ∧
      (above = [] ∨ ∃ form, t.FunctionBody form above) := by
  rcases hv.eq_root_or with rfl | ⟨u, hu, hnext⟩
  · exact absurd hkind hroot
  · obtain ⟨ukind, s, hukind, hs, hholds, kind, hkind', hcontains⟩ := exists_slot h hu hnext
    obtain rfl := Option.some.inj (hkind.symm.trans hkind')
    have hcategory : s.category = .sourceElement := by
      cases hcategory : s.category with
      | sourceElement => rfl
      | _ => rw [hcategory] at hcontains; cases hcontains
    obtain ⟨hfield, hshape, habove⟩ := Grammar.of_sourceElement s hs hcategory
    obtain ⟨index, htrail⟩ := hholds.exists_index hshape
    refine ⟨index, u.trail, hfield ▸ htrail, ?_⟩
    rcases habove with hrole | rfl
    · exact Or.inr (hu.functionBody_of_role hrole)
    · rw [eq_root_of_program h hu hukind]
      exact Or.inl rfl

/-- **An accepted program follows the grammar.**  What is visited in it is what stands in the
    slots of its nodes.  Every such value is a node, with its slots filled by nodes of their
    categories and with the content of its kind; a function declaration stands directly in the
    body of the program or of a function. -/
theorem wellFormed_of_isValid (h : t.isValid strict = true) :
    (∀ v, t.Visits strict v ↔ t.Stands strict v) ∧
    ∀ v, t.Visits strict v → ∃ kind, v.WellFormed kind ∧ (kind = .functionDeclaration →
      ∃ index above, v.trail = .element index :: .field "body" :: above ∧
        (above = [] ∨ ∃ form, t.FunctionBody form above)) := by
  refine ⟨fun v => visits_iff_stands, fun v hv => ?_⟩
  obtain ⟨hprogram, hnil⟩ := isValid_iff.1 h
  obtain ⟨kind, hwell⟩ := exists_wellFormed hnil hv
  refine ⟨kind, hwell, ?_⟩
  rintro rfl
  refine declaration_placed hnil hv hwell.isNode ?_
  rw [hprogram]
  exact fun h => nomatch h

theorem isValid_of_isQuiet (depth : Nat) (hkind : t.kind? = some .program)
    (h : Visit.isQuiet depth (.root strict t) = true) : t.isValid strict = true :=
  isValid_iff.2 ⟨hkind, Visit.violations_eq_nil_of_isQuiet h⟩

/-- The program `function f(a) { return a; }`. -/
def identityProgram : Tree :=
  .node .program [("body", .array [.node .functionDeclaration
    [("id", named "f"), ("params", .array [named "a"]),
     ("body", .node .blockStatement
       [("body", .array [.node .returnStatement [("argument", named "a")]])])]])]

theorem identityProgram_wellFormed : identityProgram.isValid false = true ∧
    ∃ v, identityProgram.Stands false v ∧ v.WellFormed .functionDeclaration ∧
      ∃ index above, v.trail = .element index :: .field "body" :: above := by
  have hvalid : identityProgram.isValid false = true := isValid_of_isQuiet 5 rfl (by decide)
  have hvisits : identityProgram.Visits false ⟨.node, .root false, .element (.root identityProgram)
      "body" 0 (.node .functionDeclaration [("id", named "f"), ("params", .array [named "a"]),
        ("body", .node .blockStatement
          [("body", .array [.node .returnStatement [("argument", named "a")]])])])⟩ :=
    Visit.leads_of_follow (show Visit.follow _ [0] = _ from rfl)
  obtain ⟨hstands, hwellFormed⟩ := wellFormed_of_isValid hvalid
  obtain ⟨kind, hwell, hplaced⟩ := hwellFormed _ hvisits
  obtain rfl : kind = .functionDeclaration := Option.some.inj (hwell.isNode.symm.trans rfl)
  obtain ⟨index, above, htrail, -⟩ := hplaced rfl
  exact ⟨hvalid, _, (hstands _).1 hvisits, hwell, index, above, htrail⟩

end Tree

end ScriptTree
