/-
  The same tree in strict code.

  * `Fault.strictOnly`: the faults that only strict code has.
  * `Steps.Tightens`: two lists of steps that differ in faults of strict code, and in
    the scopes of their visits, which are strict in the second one.
  * `tightens_rule`: the rule of a node in a scope and in the same scope made strict.
  * `strict_adds`: strict code has the violations of other code in the same order, and
    between them only violations of its own.
-/
import ScriptTree.Proofs.Reporter
import ScriptTree.Proofs.StrictFaults

namespace ScriptTree

/-- Whether a fault is one of strict code only. -/
def Fault.strictOnly : Fault → Bool
  | strictWith | strictDelete | duplicateParameter _ | restrictedName _ | duplicateProperty _ =>
    true
  | reservedWord word => Name.isStrictOnly word
  | _ => false

namespace Scope

/-- It does not matter when code becomes strict. -/
theorem enter_strict_enter (s : Scope) (m : Move) :
    (s.enter .strict).enter m = (s.enter m).enter .strict := by
  cases m <;> rfl

theorem foldl_enter_strict (s : Scope) (moves : List Move) :
    moves.foldl enter (s.enter .strict) = (moves.foldl enter s).enter .strict := by
  induction moves generalizing s with
  | nil => rfl
  | cons m moves ih => rw [List.foldl_cons, enter_strict_enter, ih, List.foldl_cons]

end Scope

namespace Steps

/-- Two lists of steps that report the same and visit the same, in the same order, but that
    the second one visits in strict code, and has faults of strict code between them. -/
inductive Tightens : List Step → List Step → Prop
  | nil : Tightens [] []
  | report {w a b} : Tightens a b → Tightens (.report w :: a) (.report w :: b)
  | visit {role scope c a b} : Tightens a b →
      Tightens (.visit role scope c :: a) (.visit role (scope.enter .strict) c :: b)
  | extra {w a b} : w.fault.strictOnly = true → Tightens a b → Tightens a (.report w :: b)

variable {o : Occurrence} {scope : Scope} {name : String} {category : Category}

theorem Tightens.append {a b c d : List Step} (h : Tightens a b) (h' : Tightens c d) :
    Tightens (a ++ c) (b ++ d) := by
  induction h with
  | nil => exact h'
  | report _ ih => exact .report ih
  | visit _ ih => exact .visit ih
  | extra hw _ ih => exact .extra hw ih

theorem Tightens.flatMap {α : Type} {l : List α} {f g : α → List Step}
    (h : ∀ a ∈ l, Tightens (f a) (g a)) : Tightens (l.flatMap f) (l.flatMap g) := by
  induction l with
  | nil => exact .nil
  | cons a l ih =>
    rw [List.flatMap_cons, List.flatMap_cons]
    exact (h a List.mem_cons_self).append (ih fun b hb => h b (List.mem_cons_of_mem _ hb))

/-- Steps that visit nothing are the same in strict code. -/
theorem tightens_of_visits {steps : List Step} (h : visits steps = []) :
    Tightens steps steps := by
  induction steps with
  | nil => exact .nil
  | cons step rest ih =>
    cases step with
    | report w => exact .report (ih h)
    | visit => cases h

theorem tightens_fault {f : Fault} : Tightens (fault o f) (fault o f) := .report .nil

theorem tightens_faultIf {test : Bool} {f : Fault} :
    Tightens (faultIf test o f) (faultIf test o f) := tightens_of_visits (visits_faultIf ..)

theorem tightens_location : Tightens (location o) (location o) :=
  tightens_of_visits (visits_location o)

theorem tightens_operator (family : OperatorFamily) :
    Tightens (operator o family) (operator o family) :=
  tightens_of_visits (visits_operator family)

/-! ## Steps of strict code only -/

/-- Steps that report faults of strict code only may be added. -/
theorem tightens_extra {steps : List Step}
    (h : ∀ step ∈ steps, ∃ w, step = .report w ∧ w.fault.strictOnly = true) :
    Tightens [] steps := by
  induction steps with
  | nil => exact .nil
  | cons step rest ih =>
    obtain ⟨⟨w, rfl, hw⟩, hrest⟩ := List.forall_mem_cons.1 h
    exact .extra hw (ih hrest)

/-- Steps that are taken in strict code only. -/
theorem tightens_strict {steps : List Step}
    (h : ∀ step ∈ steps, ∃ w, step = .report w ∧ w.fault.strictOnly = true) :
    Tightens (if scope.strict then steps else [])
      (if (scope.enter .strict).strict then steps else []) := by
  have hvisits : visits steps = [] := by
    refine List.filterMap_eq_nil_iff.2 fun step hstep => ?_
    obtain ⟨w, rfl, -⟩ := h step hstep
    rfl
  show Tightens _ steps
  cases scope.strict with
  | true => exact tightens_of_visits hvisits
  | false => exact tightens_extra h

theorem strictOnly_of_mem_fault {f : Fault} (hf : f.strictOnly = true) :
    ∀ step ∈ fault o f, ∃ w, step = .report w ∧ w.fault.strictOnly = true := by
  intro step hstep
  exact ⟨⟨o, f⟩, List.mem_singleton.1 hstep, hf⟩

theorem strictOnly_of_mem_faultIf {test : Bool} {f : Fault} (hf : f.strictOnly = true) :
    ∀ step ∈ faultIf test o f, ∃ w, step = .report w ∧ w.fault.strictOnly = true := by
  cases test with
  | true => exact strictOnly_of_mem_fault hf
  | false => exact fun _ h => nomatch h

theorem tightens_binding {target : Option Tree} :
    Tightens (binding o scope target) (binding o (scope.enter .strict) target) := by
  unfold binding
  refine tightens_strict ?_
  split
  · exact strictOnly_of_mem_faultIf rfl
  · exact fun _ h => nomatch h

/-- A fault of strict code, with a test that does not depend on the code. -/
theorem tightens_faultIf_strict {test : Bool} {f : Fault} (hf : f.strictOnly = true) :
    Tightens (faultIf (scope.strict && test) o f)
      (faultIf ((scope.enter .strict).strict && test) o f) := by
  have hsplit : ∀ strict : Bool,
      faultIf (strict && test) o f = if strict then faultIf test o f else [] := by
    intro strict
    cases strict <;> rfl
  rw [hsplit, hsplit]
  exact tightens_strict (strictOnly_of_mem_faultIf hf)

/-! ## Fields -/

theorem tightens_present {field : Field} {c : Occurrence} :
    Tightens (present o field category scope c)
      (present o field category (scope.enter .strict) c) := by
  refine .append ?_ (.visit .nil)
  split
  · exact tightens_faultIf
  · exact .nil

theorem tightens_required :
    Tightens (required o name category scope) (required o name category (scope.enter .strict)) := by
  unfold required
  split
  · exact tightens_present
  · exact tightens_fault

theorem tightens_optional :
    Tightens (optional o name category scope) (optional o name category (scope.enter .strict)) := by
  unfold optional
  split
  · exact tightens_present
  · exact .nil

theorem tightens_elements {holes : Bool} {values : List Tree} :
    Tightens (elements o name category holes scope values)
      (elements o name category holes (scope.enter .strict) values) := by
  refine .flatMap fun (value, index) _ => ?_
  simp only [element]
  split
  · exact tightens_faultIf
  · exact tightens_present

theorem tightens_withList {f g : List Tree → List Step}
    (h : ∀ values, Tightens (f values) (g values)) :
    Tightens (withList o name f) (withList o name g) := by
  unfold withList
  split
  · exact tightens_fault
  · split
    · exact tightens_fault
    · exact h _

theorem tightens_list :
    Tightens (list o name category scope) (list o name category (scope.enter .strict)) :=
  tightens_withList fun _ => tightens_elements

end Steps

/-! ## The rules -/

namespace Rule

open Steps

variable {o : Occurrence} {scope : Scope}

theorem tightens_program : Tightens (program o scope) (program o (scope.enter .strict)) := by
  refine tightens_withList fun body => ?_
  have hscope : ∀ outer : Scope, (if Prologue.usesStrict body then outer.enter .strict else outer) =
      (Grammar.strictMoves (some body)).foldl Scope.enter outer :=
    fun _ => (foldl_strictMoves (some body)).symm
  rw [hscope, hscope, Scope.foldl_enter_strict]
  exact tightens_elements

theorem tightens_operation (family : OperatorFamily) :
    Tightens (operation family o scope) (operation family o (scope.enter .strict)) :=
  ((tightens_operator family).append tightens_required).append tightens_required

/-- An identifier has the same fault in strict code, or none in other code and a word that is
    reserved in strict code only. -/
theorem identifierFault_strict (name : Option Tree) :
    Identifier.fault? true name = Identifier.fault? false name ∨
      Identifier.fault? false name = none ∧ ∃ word,
        Identifier.fault? true name = some (.reservedWord word) ∧
          Name.isStrictOnly word = true := by
  cases name with
  | none => exact Or.inl rfl
  | some value =>
    cases value with
    | string word =>
      cases hname : Name.isName word with
      | false => exact Or.inl (by simp [Identifier.fault?, hname])
      | true =>
        cases hsloppy : Name.isReserved false word with
        | true =>
          have hstrict := Name.isReserved_of_sloppy hsloppy true
          exact Or.inl (by simp [Identifier.fault?, hname, hsloppy, hstrict])
        | false =>
          cases hstrict : Name.isReserved true word with
          | false => exact Or.inl (by simp [Identifier.fault?, hname, hsloppy, hstrict])
          | true =>
            refine Or.inr ⟨by simp [Identifier.fault?, hname, hsloppy], word, ?_, ?_⟩
            · simp [Identifier.fault?, hname, hstrict]
            · rw [Name.isStrictOnly, hstrict, hsloppy]
              rfl
    | _ => exact Or.inl rfl

theorem tightens_identifier :
    Tightens (identifier o scope) (identifier o (scope.enter .strict)) := by
  unfold identifier
  show Tightens _ ((Identifier.fault? true (o.value.child? "name")).toList.flatMap (fault o))
  cases scope.strict with
  | true => exact tightens_of_visits (visits_flatMap_fault _ id)
  | false =>
    rcases identifierFault_strict (o.value.child? "name") with h | ⟨hnone, word, hword, hstrict⟩
    · rw [h]
      exact tightens_of_visits (visits_flatMap_fault _ id)
    · rw [hnone, hword]
      exact .extra hstrict .nil

theorem tightens_memberExpression :
    Tightens (memberExpression o scope) (memberExpression o (scope.enter .strict)) := by
  refine tightens_required.append ?_
  split
  · exact tightens_required
  · exact tightens_of_visits visits_memberName

theorem tightens_updateExpression :
    Tightens (updateExpression o scope) (updateExpression o (scope.enter .strict)) := by
  refine .append (.append (.append (tightens_operator _) tightens_required) tightens_binding) ?_
  split
  · exact .nil
  · exact .nil
  · exact tightens_fault

/-! ### Functions -/

theorem functionScope_enter_strict (function : Tree) :
    functionScope function (scope.enter .strict) =
      (functionScope function scope).enter .strict := by
  rw [functionScope_eq, functionScope_eq, Scope.foldl_enter_strict]

theorem tightens_functionName (form : FunctionForm) :
    Tightens (functionName form o scope) (functionName form o (scope.enter .strict)) := by
  refine .append ?_ tightens_binding
  cases form with
  | declaration => exact tightens_required
  | expression => exact tightens_optional

theorem tightens_parameters :
    Tightens (parameters o scope) (parameters o (scope.enter .strict)) := by
  refine tightens_withList fun params => .append (.append tightens_elements ?_) ?_
  · exact .flatMap fun _ _ => tightens_binding
  · refine tightens_strict fun step hstep => ?_
    obtain ⟨name, -, hname⟩ := List.mem_flatMap.1 hstep
    exact strictOnly_of_mem_fault rfl step hname

theorem tightens_functionBody {outer inner : Scope} :
    Tightens (functionBody o outer inner)
      (functionBody o (outer.enter .strict) (inner.enter .strict)) := by
  unfold functionBody
  split
  · exact tightens_fault
  · split
    · exact .visit .nil
    · exact tightens_present

theorem tightens_function (form : FunctionForm) :
    Tightens (function form o scope) (function form o (scope.enter .strict)) := by
  have hbody : functionBody o (scope.enter .strict)
      ((functionScope o.value (scope.enter .strict)).enter form.bodyMove) =
        functionBody o (scope.enter .strict)
          (((functionScope o.value scope).enter form.bodyMove).enter .strict) := by
    rw [functionScope_enter_strict, Scope.enter_strict_enter]
  rw [function, function, hbody, functionScope_enter_strict]
  exact ((tightens_functionName form).append tightens_parameters).append tightens_functionBody

/-! ### Properties -/

theorem tightens_conflict {p : Occurrence} {names : SeenNames} :
    Tightens (conflict p scope names) (conflict p (scope.enter .strict) names) := by
  unfold conflict
  split
  · next key kind _ =>
    show Tightens _ (((names.of key).fault? true kind key).toList.flatMap (fault p))
    cases scope.strict with
    | true => exact tightens_of_visits (visits_flatMap_fault _ id)
    | false =>
      unfold Seen.fault?
      split
      · exact tightens_fault
      · simp only [Bool.false_eq_true, and_false, if_false]
        split
        · exact .extra rfl .nil
        · exact .nil
  · exact .nil

theorem tightens_property {p : Occurrence} {names : SeenNames} :
    Tightens (property p scope names) (property p (scope.enter .strict) names) := by
  have hkey := tightens_of_visits (visits_propertyKey (p := p))
  have haccessor := tightens_of_visits (visits_accessor (p := p))
  exact ((((tightens_location.append tightens_faultIf).append hkey).append
    tightens_required).append haccessor).append tightens_conflict

theorem tightens_properties {values : List (Tree × Nat)} {names : SeenNames} :
    Tightens (properties o scope names values)
      (properties o (scope.enter .strict) names values) := by
  induction values generalizing names with
  | nil => exact .nil
  | cons p rest ih =>
    obtain ⟨value, index⟩ := p
    unfold properties
    split
    · exact tightens_property.append ih
    · exact tightens_fault.append ih

/-! ### Statements -/

theorem tightens_labelUse : Tightens (labelUse o scope) (labelUse o (scope.enter .strict)) := by
  refine tightens_optional.append ?_
  split
  · exact tightens_faultIf
  · exact .nil

theorem tightens_labeledStatement :
    Tightens (labeledStatement o scope) (labeledStatement o (scope.enter .strict)) := by
  refine tightens_required.append ?_
  split
  · rw [Scope.enter_strict_enter]
    exact tightens_faultIf.append tightens_required
  · exact tightens_required

theorem tightens_loopBody : Tightens (loopBody o scope) (loopBody o (scope.enter .strict)) := by
  unfold loopBody
  rw [Scope.enter_strict_enter]
  exact tightens_required

theorem tightens_switchStatement :
    Tightens (switchStatement o scope) (switchStatement o (scope.enter .strict)) := by
  refine tightens_required.append (tightens_withList fun cases => tightens_elements.append ?_)
  exact .flatMap fun _ _ => tightens_fault

theorem tightens_catchClauses :
    Tightens (catchClauses o scope) (catchClauses o (scope.enter .strict)) := by
  rw [catchClauses_eq, catchClauses_eq]
  split
  · exact tightens_list
  · exact tightens_optional

theorem tightens_withStatement :
    Tightens (withStatement o scope) (withStatement o (scope.enter .strict)) := by
  refine .append (.append ?_ tightens_required) tightens_required
  exact tightens_strict (strictOnly_of_mem_fault rfl)

/-- One case for each kind: nothing is lost in strict code. -/
theorem tightens_ofKind (kind : Kind) :
    Tightens (ofKind kind o scope) (ofKind kind o (scope.enter .strict)) := by
  cases kind with
  | program => exact tightens_program
  | arrayExpression => exact tightens_withList fun _ => tightens_elements
  | assignmentExpression => exact (tightens_operation _).append tightens_binding
  | binaryExpression | logicalExpression => exact tightens_operation _
  | callExpression | newExpression => exact tightens_required.append tightens_list
  | conditionalExpression =>
    exact (tightens_required.append tightens_required).append tightens_required
  | functionExpression | functionDeclaration => exact tightens_function _
  | identifier => exact tightens_identifier
  | literal => exact tightens_of_visits (visits_flatMap_fault _ id)
  | memberExpression => exact tightens_memberExpression
  | objectExpression => exact tightens_withList fun _ => tightens_properties
  | sequenceExpression =>
    exact tightens_withList fun _ => tightens_faultIf.append tightens_elements
  | thisExpression | debuggerStatement | emptyStatement => exact .nil
  | unaryExpression =>
    exact ((tightens_operator _).append tightens_required).append (tightens_faultIf_strict rfl)
  | updateExpression => exact tightens_updateExpression
  | blockStatement => exact tightens_list
  | breakStatement | continueStatement => exact tightens_faultIf.append tightens_labelUse
  | doWhileStatement => exact tightens_loopBody.append tightens_required
  | expressionStatement | throwStatement => exact tightens_required
  | forInStatement =>
    exact ((tightens_required.append tightens_binding).append tightens_required).append
      tightens_loopBody
  | forStatement =>
    exact ((tightens_optional.append tightens_optional).append tightens_optional).append
      tightens_loopBody
  | ifStatement =>
    exact ((tightens_required.append tightens_required).append tightens_optional).append
      tightens_faultIf
  | labeledStatement => exact tightens_labeledStatement
  | returnStatement => exact tightens_faultIf.append tightens_optional
  | switchStatement => exact tightens_switchStatement
  | tryStatement =>
    exact ((tightens_required.append tightens_catchClauses).append tightens_optional).append
      tightens_faultIf
  | variableDeclaration =>
    exact tightens_faultIf.append (tightens_withList fun _ =>
      tightens_elements.append tightens_faultIf)
  | whileStatement => exact tightens_required.append tightens_loopBody
  | withStatement => exact tightens_withStatement
  | catchClause => exact (tightens_required.append tightens_binding).append tightens_required
  | switchCase =>
    refine tightens_optional.append ?_
    rw [Scope.enter_strict_enter]
    exact tightens_list
  | variableDeclarator =>
    exact (tightens_required.append tightens_binding).append tightens_optional

end Rule

theorem tightens_rule (role : Role) (scope : Scope) (o : Occurrence) (kind : Kind) :
    Steps.Tightens (rule role scope o kind) (rule role (scope.enter .strict) o kind) := by
  refine Steps.tightens_location.append ?_
  cases role with
  | node => exact Rule.tightens_ofKind kind
  | functionBody => exact Steps.tightens_list

/-! ## The violations -/

/-- One list of violations is the other with violations of strict code between them. -/
structure AddsStrict (a b : List Violation) : Prop where
  sublist : a.Sublist b
  filter : (a.filter fun w => !w.fault.strictOnly) = b.filter fun w => !w.fault.strictOnly

namespace AddsStrict

variable {a b c d : List Violation}

theorem refl (a : List Violation) : AddsStrict a a := ⟨.refl a, rfl⟩

theorem append (h : AddsStrict a b) (h' : AddsStrict c d) : AddsStrict (a ++ c) (b ++ d) := by
  refine ⟨h.sublist.append h'.sublist, ?_⟩
  rw [List.filter_append, List.filter_append, h.filter, h'.filter]

theorem extra {w : Violation} (hw : w.fault.strictOnly = true) (h : AddsStrict a b) :
    AddsStrict a (w :: b) := by
  refine ⟨h.sublist.cons w, ?_⟩
  rw [h.filter, List.filter_cons_of_neg (by simp [hw])]

/-- A violation that is added is one of strict code. -/
theorem strictOnly_of_not_mem (h : AddsStrict a b) {w : Violation} (hw : w ∈ b) (hnot : w ∉ a) :
    w.fault.strictOnly = true := by
  by_contra hstrict
  have hmem : w ∈ b.filter fun w => !w.fault.strictOnly :=
    List.mem_filter.2 ⟨hw, by simpa using hstrict⟩
  rw [← h.filter] at hmem
  exact hnot (List.mem_filter.1 hmem).1

theorem eq_nil (h : AddsStrict a b) (hb : b = []) : a = [] :=
  List.sublist_nil.1 (hb ▸ h.sublist)

end AddsStrict

/-- If the visits among the steps only add violations of strict code, so do the steps. -/
theorem Steps.Tightens.addsStrict {a b : List Step} (h : Tightens a b)
    (hvisit : ∀ role scope c, Step.visit role scope c ∈ a →
      AddsStrict (violations role scope c) (violations role (scope.enter .strict) c)) :
    AddsStrict (a.flatMap Step.violations) (b.flatMap Step.violations) := by
  induction h with
  | nil => exact .refl _
  | report _ ih =>
    have hrest := ih fun role scope c hc => hvisit role scope c (List.mem_cons_of_mem _ hc)
    exact .append (.refl _) hrest
  | visit _ ih =>
    have hrest := ih fun role scope c hc => hvisit role scope c (List.mem_cons_of_mem _ hc)
    exact .append (hvisit _ _ _ List.mem_cons_self) hrest
  | extra hw _ ih => exact .extra hw (ih hvisit)

/-- Strict code only adds violations, at every occurrence. -/
theorem violations_addsStrict (role : Role) (scope : Scope) (o : Occurrence) :
    AddsStrict (violations role scope o) (violations role (scope.enter .strict) o) := by
  induction hn : sizeOf o.value using Nat.strongRecOn generalizing role scope o with
  | ind n ih =>
    subst hn
    rw [violations_eq, violations_eq]
    split
    · exact .refl _
    · next kind _ =>
      refine (tightens_rule role scope o kind).addsStrict fun role' scope' c hc => ?_
      exact ih _ (within_rule _ hc) role' scope' c rfl

/-- **Strict code only adds violations.**  The violations of a tree are also those of the
    tree as strict code, at the same occurrences and in the same order, and each violation
    that is added is one of strict code.  So what is valid in strict code is valid. -/
theorem strict_adds (t : Tree) :
    (t.violations false).Sublist (t.violations true) ∧
    (∀ w ∈ t.violations true, w ∉ t.violations false → w.fault.strictOnly = true) ∧
    ((t.violations false).filter fun w => !w.fault.strictOnly) =
      ((t.violations true).filter fun w => !w.fault.strictOnly) ∧
    (t.isValid true = true → t.isValid false = true) ∧
    (t.isValidExpression true = true → t.isValidExpression false = true) := by
  have h : AddsStrict (t.violations false) (t.violations true) :=
    violations_addsStrict .node (.root false) (.root t)
  refine ⟨h.sublist, fun w => h.strictOnly_of_not_mem, h.filter, ?_, ?_⟩
  · intro hvalid
    rw [Tree.isValid_iff] at hvalid ⊢
    exact ⟨hvalid.1, h.eq_nil hvalid.2⟩
  · intro hvalid
    rw [Tree.isValidExpression_iff] at hvalid ⊢
    exact ⟨hvalid.1, h.eq_nil hvalid.2⟩

/-- The statement `with (a) ;`. -/
def Tree.plainWith : Tree :=
  .node .withStatement [("object", named "a"), ("body", .node .emptyStatement [])]

/-- The statement has a violation in strict code, and none in other code.  A name by itself is
    valid in both. -/
theorem plainWith_onlyStrict :
    (∃ w ∈ Tree.plainWith.violations true, w ∉ Tree.plainWith.violations false ∧
      w.fault.strictOnly = true) ∧
    (Tree.named "a").isValidExpression true = true ∧
    (Tree.named "a").isValidExpression false = true := by
  have hown : (⟨.root Tree.plainWith, .strictWith⟩ : Violation) ∈
      (Visit.root true Tree.plainWith).own := List.mem_cons_self
  have hmem := Tree.mem_violations_iff.2 ⟨_, Relation.ReflTransGen.refl, hown⟩
  have hquiet : Visit.isQuiet 2 (.root false Tree.plainWith) = true := by decide
  have hnone : Tree.plainWith.violations false = [] := Visit.violations_eq_nil_of_isQuiet hquiet
  have hnot : (⟨.root Tree.plainWith, .strictWith⟩ : Violation) ∉
      Tree.plainWith.violations false := by
    rw [hnone]
    exact List.not_mem_nil
  have hname : Visit.isQuiet 1 (.root true (.named "a")) = true := by decide
  have hvalid : (Tree.named "a").isValidExpression true = true :=
    Tree.isValidExpression_iff.2
      ⟨⟨.identifier, rfl, rfl⟩, Visit.violations_eq_nil_of_isQuiet hname⟩
  exact ⟨⟨_, hmem, hnot, (strict_adds _).2.1 _ hmem hnot⟩, hvalid,
    (strict_adds _).2.2.2.2 hvalid⟩

end ScriptTree
