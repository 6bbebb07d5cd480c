/-
  Labels, and the statements that name one.

  * `Tree.label?`: the label that a statement has, or that a jump names.
  * `Tree.LabelInScope`: a path has the body of a statement with a label, and behind it no
    body of a function.
  * `Tree.Visits.hasLabel_iff`: the labels in the scope of a visit are those of its path.
  * `labels_scoped`: which breaks, continues and statements with a label are charged for
    their label, and that nothing else is.
-/
import ScriptTree.Proofs.Tally

namespace ScriptTree

namespace Tree

/-- The name of the label of a statement, if its label is an identifier. -/
def label? (statement : Tree) : Option String := statement.child? "label" >>= identifierName?

/-- A path ends with the step into the body of a statement with a label. -/
def LabelBody (t : Tree) (name : String) (trail : List Selector) : Prop :=
  ∃ above statement, trail = .field "body" :: above ∧ t.at? above = some statement ∧
    statement.kind? = some .labeledStatement ∧ statement.label? = some name

/-- A path has the body of a statement with a label, and behind it no body of a function. -/
def LabelInScope (t : Tree) (name : String) (trail : List Selector) : Prop :=
  Since (t.LabelBody name) (fun start => ∃ form, t.FunctionBody form start) trail

end Tree

/-! ## The labels behind a step -/

namespace Grammar

variable {t : Tree} {s : Slot} {kind : Kind} {field name : String}

/-- The step into a field leads from a statement with a label to its body. -/
def EntersLabel (t : Tree) (kind : Kind) (field name : String) : Prop :=
  field = "body" ∧ kind = .labeledStatement ∧ t.label? = some name

theorem not_entersLabel_of_kind (h : kind ≠ .labeledStatement) :
    ¬ EntersLabel t kind field name :=
  fun hlabel => h hlabel.2.1

/-- A label is in scope behind a step iff the step leads to the body of the statement that
    has it, or it was in scope before; behind the step into the body of a function there is
    none. -/
def LabelTurns (t : Tree) (kind : Kind) (field name : String) (outer inner : Scope) : Prop :=
  inner.hasLabel name = true ↔ ¬ (∃ form, EntersFunction t kind field form) ∧
    (EntersLabel t kind field name ∨ outer.hasLabel name = true)

/-- A step that leads to no body of a function or of a statement with the label keeps the
    label. -/
theorem LabelTurns.keep {outer inner : Scope}
    (hfunction : ∀ form, ¬ EntersFunction t kind field form)
    (hlabel : ¬ EntersLabel t kind field name) (hlabels : inner.labels = outer.labels) :
    LabelTurns t kind field name outer inner := by
  have hkeep : inner.hasLabel name = outer.hasLabel name := by
    rw [Scope.hasLabel, hlabels]
    rfl
  rw [LabelTurns, hkeep, and_iff_right (not_exists.2 hfunction), or_iff_right hlabel]

/-- **The labels turn as the step into the field says.** -/
theorem Way.labelTurns (h : Way t s kind) (name : String) (outer : Scope) :
    LabelTurns t kind s.field name outer (s.scope outer) := by
  cases h with
  | loop hkind hfield _ hmoves =>
    have hlabeled : kind ≠ .labeledStatement := by
      rintro rfl
      cases hkind
    refine .keep (not_entersFunction ?_ ?_) (not_entersLabel_of_kind hlabeled) ?_
    · rintro rfl
      cases hkind
    · rintro rfl
      cases hkind
    · rw [Slot.scope, hmoves]
      rfl
  | switch _ _ hmoves =>
    refine .keep (not_entersFunction ?_ ?_) (not_entersLabel_of_kind ?_) ?_
    · simp
    · simp
    · simp
    · rw [Slot.scope, hmoves]
      rfl
  | label hfield _ hmoves =>
    have hnone : ¬ ∃ form, EntersFunction t .labeledStatement s.field form :=
      not_exists.2 (not_entersFunction (by simp) (by simp))
    have hlabels : (s.scope outer).labels = t.label?.toList ++ outer.labels := by
      rw [Slot.scope, hmoves, enter_labelMoves]
      rfl
    rw [LabelTurns, and_iff_right hnone, Scope.hasLabel, hlabels, EntersLabel, Scope.hasLabel]
    simp [hfield, Option.mem_toList]
  | program _ _ hmoves =>
    refine .keep (not_entersFunction ?_ ?_) (not_entersLabel_of_kind ?_) ?_
    · simp
    · simp
    · simp
    · rw [Slot.scope, hmoves, enter_strictMoves]
  | ownCode form hfield _ hmoves =>
    have hbody : s.field ≠ "body" := by
      rcases hfield with h | h <;> simp [h]
    refine .keep (fun _ h => hbody h.1) (fun h => hbody h.1) ?_
    rw [Slot.scope, hmoves, enter_strictMoves]
  | functionBody form hfield _ _ hblock hmoves =>
    have henters : ∃ form', EntersFunction t form.kind s.field form' := ⟨form, hfield, rfl, hblock⟩
    have hlabels : (s.scope outer).labels = [] := by
      rw [Slot.scope, hmoves, List.foldl_append]
      cases form <;> rfl
    rw [LabelTurns, Scope.hasLabel, hlabels]
    simp [henters]
  | plain _ hmoves hplain =>
    refine .keep (fun form h => (hplain.function form h.2.1).2 h.2.2)
      (fun h => hplain.label h.2.1 h.1) ?_
    rw [Slot.scope, hmoves]
    rfl

end Grammar

/-! ## The labels at a visit -/

namespace Tree

variable {strict : Bool} {t value : Tree} {v : Visit} {kind : Kind} {field name : String}
  {above : List Selector}

theorem labelBody_cons_iff (hat : t.at? above = some value) (hkind : value.kind? = some kind) :
    t.LabelBody name (.field field :: above) ↔ Grammar.EntersLabel value kind field name := by
  constructor
  · rintro ⟨above', statement, htrail, hat', hkind', hlabel⟩
    obtain ⟨hfield, rfl⟩ := List.cons.inj htrail
    obtain rfl := Option.some.inj (hat.symm.trans hat')
    exact ⟨Selector.field.inj hfield, Option.some.inj (hkind.symm.trans hkind'), hlabel⟩
  · rintro ⟨rfl, rfl, hlabel⟩
    exact ⟨above, value, rfl, hat, hkind, hlabel⟩

/-- A label is in the scope of a visit iff its path has the body of a statement with that
    label, and behind it no body of a function. -/
theorem Visits.hasLabel_iff (h : t.Visits strict v) :
    v.scope.hasLabel name = true ↔ t.LabelInScope name v.trail := by
  let flag : Scope → Bool := fun scope => scope.hasLabel name
  have hroot : flag (.root strict) = false := rfl
  show flag v.scope = true ↔ _
  refine flag_iff ?_ hroot ?_ h
  · rintro trail (⟨above, _, rfl, -⟩ | ⟨form, hbody⟩)
    · exact ⟨_, _, rfl, by simp⟩
    · obtain ⟨above, rfl⟩ := field_of_functionBody hbody
      exact ⟨_, _, rfl, by simp⟩
  · intro kind s above value outer hat hkind hway
    simp only [labelBody_cons_iff hat hkind, functionBody_cons_iff hat hkind]
    exact hway.labelTurns name outer

end Tree

/-! ## What a label is charged for -/

namespace Rule

open Steps

variable {o : Occurrence} {scope : Scope} {name : String}

theorem labelUse_eq (h : o.value.label? = some name) :
    labelUse o scope = optional o "label" .identifier scope ++
      faultIf (!scope.hasLabel name) o (.unknownLabel name) := by
  rw [Tree.label?] at h
  rw [labelUse, h]

theorem labeledStatement_eq (h : o.value.label? = some name) :
    labeledStatement o scope = required o "label" .identifier scope ++
      (faultIf (scope.hasLabel name) o (.duplicateLabel name) ++
        required o "body" .statement (scope.enter (.label name))) := by
  rw [Tree.label?] at h
  rw [labeledStatement, h]

/-- The rules of the statements that may name a label look at it last. -/
theorem exists_labelUse {kind : Kind} (o : Occurrence) (scope : Scope)
    (hkind : kind = .breakStatement ∨ kind = .continueStatement) :
    ∃ placed, ofKind kind o scope = placed ++ labelUse o scope ∧
      ∀ name, .unknownLabel name ∉ faults placed := by
  rcases hkind with rfl | rfl
  · exact ⟨faultIf (!scope.breakable) o .breakOutside, rfl, by simp⟩
  · exact ⟨faultIf (!scope.inIteration) o .continueOutside, rfl, by simp⟩

/-- A jump is charged for no label but the one that it names. -/
theorem label_of_mem_labelUse (h : .unknownLabel name ∈ faults (labelUse o scope)) :
    o.value.label? = some name := by
  have hfield : .unknownLabel name ∉ faults (optional o "label" .identifier scope) :=
    not_mem_faults_optional rfl
  cases hlabel : o.value.label? with
  | none =>
    rw [Tree.label?] at hlabel
    rw [labelUse, hlabel, faults_append, faults_nil, List.append_nil] at h
    exact absurd h hfield
  | some found =>
    rw [labelUse_eq hlabel, faults_append, faults_faultIf] at h
    rcases List.mem_append.1 h with h | h
    · exact absurd h hfield
    · cases hscope : scope.hasLabel found <;> simp_all

/-- A statement is charged for no label but its own. -/
theorem label_of_mem_labeledStatement
    (h : .duplicateLabel name ∈ faults (labeledStatement o scope)) :
    o.value.label? = some name := by
  have hfield : ∀ field category inner,
      .duplicateLabel name ∉ faults (required o field category inner) :=
    fun _ _ _ => not_mem_faults_required rfl
  cases hlabel : o.value.label? with
  | none =>
    rw [Tree.label?] at hlabel
    rw [labeledStatement, hlabel, faults_append] at h
    rcases List.mem_append.1 h with h | h
    · exact absurd h (hfield _ _ _)
    · exact absurd h (hfield _ _ _)
  | some found =>
    rw [labeledStatement_eq hlabel, faults_append, faults_append, faults_faultIf] at h
    rcases List.mem_append.1 h with h | h
    · exact absurd h (hfield _ _ _)
    · rcases List.mem_append.1 h with h | h
      · cases hscope : scope.hasLabel found <;> simp_all
      · exact absurd h (hfield _ _ _)

end Rule

namespace Tree.Visits

variable {strict : Bool} {t : Tree} {v : Visit} {name : String}

theorem count_unknownLabel (h : t.Visits strict v)
    (hkind : v.occurrence.value.kind? = some .breakStatement ∨
      v.occurrence.value.kind? = some .continueStatement)
    (hlabel : v.occurrence.value.label? = some name) :
    (t.chargedAt strict v.trail).count (.unknownLabel name) =
      if !v.scope.hasLabel name then 1 else 0 := by
  let field := Steps.optional v.occurrence "label" .identifier v.scope
  have hfield : .unknownLabel name ∉ Steps.faults field := Steps.not_mem_faults_optional rfl
  obtain ⟨kind, hkind, hjump⟩ : ∃ kind, v.occurrence.value.kind? = some kind ∧
      (kind = .breakStatement ∨ kind = .continueStatement) := by
    rcases hkind with hkind | hkind
    · exact ⟨_, hkind, Or.inl rfl⟩
    · exact ⟨_, hkind, Or.inr rfl⟩
  obtain ⟨placed, hrule, hplaced⟩ := Rule.exists_labelUse v.occurrence v.scope hjump
  have hne : ∀ other : Kind, other ≠ .breakStatement → other ≠ .continueStatement →
      kind ≠ other := by
    rintro other hbreak hcontinue rfl
    rcases hjump with rfl | rfl
    · exact hbreak rfl
    · exact hcontinue rfl
  refine h.count_chargedAt hkind (hne _ (by simp) (by simp)) (hne _ (by simp) (by simp))
    (hne _ (by simp) (by simp)) (placed ++ field) [] ?_ (Steps.not_mem_faults_location rfl) ?_
    List.not_mem_nil
  · rw [hrule, Rule.labelUse_eq hlabel, List.append_nil, List.append_assoc]
  · rw [Steps.faults_append, List.mem_append, not_or]
    exact ⟨hplaced name, hfield⟩

theorem count_duplicateLabel (h : t.Visits strict v)
    (hkind : v.occurrence.value.kind? = some .labeledStatement)
    (hlabel : v.occurrence.value.label? = some name) :
    (t.chargedAt strict v.trail).count (.duplicateLabel name) =
      if v.scope.hasLabel name then 1 else 0 :=
  h.count_chargedAt hkind (by simp) (by simp) (by simp) _ _ (Rule.labeledStatement_eq hlabel)
    (Steps.not_mem_faults_location rfl) (Steps.not_mem_faults_required rfl)
    (Steps.not_mem_faults_required rfl)

/-- Only a jump that names a label is charged because the label is not there. -/
theorem owner_of_unknownLabel {w : Violation} (h : t.Visits strict v) (hw : w ∈ v.own)
    (hfault : w.fault = .unknownLabel name) :
    w.owner = v.occurrence ∧ v.occurrence.value.label? = some name ∧
      (v.occurrence.value.kind? = some .breakStatement ∨
        v.occurrence.value.kind? = some .continueStatement) := by
  obtain ⟨howner, kind, hkind, hcharge⟩ := Visit.owner_of_mayCharge hw
    ⟨.breakStatement, by rw [hfault]; rfl⟩ (by rw [hfault]; rfl) (by rw [hfault]; rfl)
  rw [hfault, Fault.mayCharge, Bool.or_eq_true, beq_iff_eq, beq_iff_eq] at hcharge
  have hblock : kind ≠ .blockStatement := by
    rcases hcharge with rfl | rfl <;> simp
  have hmem := h.mem_faults_ofKind hkind hblock (by rw [hfault]; rfl) hw
  rw [hfault] at hmem
  refine ⟨howner, ?_, ?_⟩
  · obtain ⟨placed, hrule, hplaced⟩ := Rule.exists_labelUse v.occurrence v.scope hcharge
    rw [hrule, Steps.faults_append] at hmem
    exact Rule.label_of_mem_labelUse ((List.mem_append.1 hmem).resolve_left (hplaced name))
  · rcases hcharge with rfl | rfl
    · exact Or.inl hkind
    · exact Or.inr hkind

/-- Only a statement with a label is charged because the label is there already. -/
theorem owner_of_duplicateLabel {w : Violation} (h : t.Visits strict v) (hw : w ∈ v.own)
    (hfault : w.fault = .duplicateLabel name) :
    w.owner = v.occurrence ∧ v.occurrence.value.label? = some name ∧
      v.occurrence.value.kind? = some .labeledStatement := by
  obtain ⟨howner, kind, hkind, hcharge⟩ := Visit.owner_of_mayCharge hw
    ⟨.labeledStatement, by rw [hfault]; rfl⟩ (by rw [hfault]; rfl) (by rw [hfault]; rfl)
  rw [hfault, Fault.mayCharge, beq_iff_eq] at hcharge
  subst hcharge
  have hmem := h.mem_faults_ofKind hkind (by simp) (by rw [hfault]; rfl) hw
  rw [hfault] at hmem
  exact ⟨howner, Rule.label_of_mem_labeledStatement hmem, hkind⟩

end Tree.Visits

/-- **Labels are in scope exactly where they may be named.**  A label is in scope in the body
    of the statement that has it, down to the bodies of functions.  A break or continue that
    names a label is charged for it once iff the label is not in scope there, and a statement
    is charged once for its own label iff that was in scope already.  Nothing else is charged
    for a label. -/
theorem labels_scoped (strict : Bool) (t : Tree) :
    (∀ w ∈ t.violations strict, ∀ name,
      (w.fault = .unknownLabel name → ∃ v, t.Visits strict v ∧ w.owner = v.occurrence ∧
        v.occurrence.value.label? = some name ∧
          (v.occurrence.value.kind? = some .breakStatement ∨
            v.occurrence.value.kind? = some .continueStatement)) ∧
      (w.fault = .duplicateLabel name → ∃ v, t.Visits strict v ∧ w.owner = v.occurrence ∧
        v.occurrence.value.label? = some name ∧
          v.occurrence.value.kind? = some .labeledStatement)) ∧
    ∀ v, t.Visits strict v → ∀ name, v.occurrence.value.label? = some name →
      (v.occurrence.value.kind? = some .breakStatement ∨
          v.occurrence.value.kind? = some .continueStatement →
        (¬ t.LabelInScope name v.trail →
          (t.chargedAt strict v.trail).count (.unknownLabel name) = 1) ∧
        (t.LabelInScope name v.trail →
          (t.chargedAt strict v.trail).count (.unknownLabel name) = 0)) ∧
      (v.occurrence.value.kind? = some .labeledStatement →
        (t.LabelInScope name v.trail →
          (t.chargedAt strict v.trail).count (.duplicateLabel name) = 1) ∧
        (¬ t.LabelInScope name v.trail →
          (t.chargedAt strict v.trail).count (.duplicateLabel name) = 0)) := by
  constructor
  · intro w hw name
    obtain ⟨v, hv, hown⟩ := Tree.mem_violations_iff.1 hw
    exact ⟨fun hfault => ⟨v, hv, hv.owner_of_unknownLabel hown hfault⟩,
      fun hfault => ⟨v, hv, hv.owner_of_duplicateLabel hown hfault⟩⟩
  · intro v hv name hlabel
    have hscope : v.scope.hasLabel name = true ↔ t.LabelInScope name v.trail := hv.hasLabel_iff
    constructor
    · intro hkind
      rw [hv.count_unknownLabel hkind hlabel, ← hscope]
      cases v.scope.hasLabel name <;> simp
    · intro hkind
      rw [hv.count_duplicateLabel hkind hlabel, ← hscope]
      cases v.scope.hasLabel name <;> simp

/-- The statement `a: { break a; (function () { break a; }); a: ; }`. -/
def Tree.nestedLabels : Tree :=
  let jump := Tree.node .breakStatement [("label", named "a")]
  let function := Tree.node .functionExpression
    [("params", .array []), ("body", .node .blockStatement [("body", .array [jump])])]
  .node .labeledStatement [("label", named "a"), ("body", .node .blockStatement [("body", .array
    [jump, .node .expressionStatement [("expression", function)],
     .node .labeledStatement [("label", named "a"), ("body", .node .emptyStatement [])]])])]

/-- The label is in scope at the first break, but not in the function, and it is in scope
    where the same label is given again. -/
theorem nestedLabels_charged : ∃ near far again,
    Tree.nestedLabels.Visits false near ∧ Tree.nestedLabels.Visits false far ∧
    Tree.nestedLabels.Visits false again ∧
    (Tree.nestedLabels.chargedAt false near.trail).count (.unknownLabel "a") = 0 ∧
    (Tree.nestedLabels.chargedAt false far.trail).count (.unknownLabel "a") = 1 ∧
    (Tree.nestedLabels.chargedAt false again.trail).count (.duplicateLabel "a") = 1 := by
  have hnear : Tree.nestedLabels.Visits false ⟨.node, ⟨["a"], false, false, false, false⟩,
      ⟨[.element 0, .field "body", .field "body"],
        .node .breakStatement [("label", .named "a")]⟩⟩ :=
    Visit.leads_of_follow (show Visit.follow _ [1, 0] = _ from rfl)
  have hfar : Tree.nestedLabels.Visits false ⟨.node, ⟨[], true, false, false, false⟩,
      ⟨[.element 0, .field "body", .field "body", .field "expression", .element 1,
        .field "body", .field "body"], .node .breakStatement [("label", .named "a")]⟩⟩ :=
    Visit.leads_of_follow (show Visit.follow _ [1, 1, 0, 0, 0] = _ from rfl)
  have hagain : Tree.nestedLabels.Visits false ⟨.node, ⟨["a"], false, false, false, false⟩,
      ⟨[.element 2, .field "body", .field "body"], .node .labeledStatement
        [("label", .named "a"), ("body", .node .emptyStatement [])]⟩⟩ :=
    Visit.leads_of_follow (show Visit.follow _ [1, 2] = _ from rfl)
  refine ⟨_, _, _, hnear, hfar, hagain, ?_, ?_, ?_⟩
  · refine (((labels_scoped _ _).2 _ hnear "a" rfl).1 (Or.inl rfl)).2 (hnear.hasLabel_iff.1 rfl)
  · refine (((labels_scoped _ _).2 _ hfar "a" rfl).1 (Or.inl rfl)).1 fun hscope => ?_
    exact absurd (hfar.hasLabel_iff.2 hscope) (by decide)
  · exact (((labels_scoped _ _).2 _ hagain "a" rfl).2 rfl).1 (hagain.hasLabel_iff.1 rfl)

end ScriptTree
