/-
  Reporters: what becomes of the violations that a traversal meets.

  A traversal hands every violation to a reporter.  It may ask the reporter whether the
  outcome is settled, and pass over steps when it is.

  * `Reporter.Run`: the traversals of a list of steps, wherever they ask.
  * `Run.eq_or_done`: a run ends where reporting every violation in order ends, unless
    both ends are settled; `run_foldl`: there is such a run.
  * `failFast` and `collector`: the reporter that stops at the first violation and the
    one that keeps them all; `traversals_agree` compares them with each other, with
    `accepts` and with `violations`.
-/
import ScriptTree.Validation

namespace ScriptTree

/-- Receives the violations of a traversal. -/
structure Reporter (σ : Type) where
  report : σ → Violation → σ
  /-- Whether no further report can change the outcome. -/
  done : σ → Bool

namespace Reporter

variable {σ : Type} {r : Reporter σ}

/-- A traversal of steps, from a state of the reporter to another.  A node that is visited
    is its rule; a malformed value is one report.  Once the reporter is done, a step may be
    passed over or not. -/
inductive Run (r : Reporter σ) : List Step → σ → σ → Prop
  | nil {s} : Run r [] s s
  | report {violation rest s s'} : Run r rest (r.report s violation) s' →
      Run r (.report violation :: rest) s s'
  | malformed {role scope c fault rest s s'} : c.value.nodeKind = .error fault →
      Run r rest (r.report s ⟨c, fault⟩) s' → Run r (.visit role scope c :: rest) s s'
  | node {role scope c kind rest s s₁ s'} : c.value.nodeKind = .ok kind →
      Run r (rule role scope c kind) s s₁ → Run r rest s₁ s' →
      Run r (.visit role scope c :: rest) s s'
  | pass {step rest s s'} : r.done s → Run r rest s s' → Run r (step :: rest) s s'

/-- A traversal of a whole tree. -/
def Traverses (r : Reporter σ) (strict : Bool) (t : Tree) (s s' : σ) : Prop :=
  r.Run [.visit .node (.root strict) (.root t)] s s'

/-! ## Every step taken -/

theorem Run.append {a b : List Step} {s s₁ s' : σ} (ha : r.Run a s s₁) (hb : r.Run b s₁ s') :
    r.Run (a ++ b) s s' := by
  induction ha with
  | nil => exact hb
  | report _ ih => exact .report (ih hb)
  | malformed hc _ ih => exact .malformed hc (ih hb)
  | node hc hrule _ _ ih => exact .node hc hrule (ih hb)
  | pass hdone _ ih => exact .pass hdone (ih hb)

/-- If each visit among some steps can be run in full, then so can the steps. -/
theorem run_of_visits {steps : List Step}
    (hvisit : ∀ role scope c, Step.visit role scope c ∈ steps → ∀ s,
      r.Run [.visit role scope c] s ((violations role scope c).foldl r.report s)) :
    ∀ s, r.Run steps s ((steps.flatMap Step.violations).foldl r.report s) := by
  induction steps with
  | nil => exact fun s => .nil
  | cons step rest ih =>
    intro s
    have hrest := ih fun role scope c hc => hvisit role scope c (List.mem_cons_of_mem _ hc)
    rw [List.flatMap_cons, List.foldl_append]
    cases step with
    | report violation => exact .report (hrest _)
    | visit role scope c =>
      exact Run.append (hvisit role scope c List.mem_cons_self s) (hrest _)

theorem run_visit (role : Role) (scope : Scope) (o : Occurrence) (s : σ) :
    r.Run [.visit role scope o] s ((violations role scope o).foldl r.report s) := by
  -- the values that a rule visits are smaller than the node
  induction hn : sizeOf o.value using Nat.strongRecOn generalizing role scope o s with
  | ind n ih =>
    subst hn
    rw [violations_eq]
    cases hkind : o.value.nodeKind with
    | error fault => exact .malformed hkind .nil
    | ok kind =>
      refine .node hkind (run_of_visits (fun role' scope' c hc s => ?_) s) .nil
      exact ih _ (within_rule _ hc) role' scope' c s rfl

/-- A traversal may take every step; then it reports every violation in order. -/
theorem run_foldl (steps : List Step) (s : σ) :
    r.Run steps s ((steps.flatMap Step.violations).foldl r.report s) :=
  run_of_visits (fun role scope c _ s => run_visit role scope c s) s

/-! ## Steps passed over -/

section
variable (hr : ∀ s violation, r.done s → r.done (r.report s violation))
include hr

theorem done_foldl {s : σ} (hs : r.done s) (vs : List Violation) :
    r.done (vs.foldl r.report s) := by
  induction vs generalizing s with
  | nil => exact hs
  | cons violation vs ih => exact ih (hr s violation hs)

theorem Run.done {steps : List Step} {s s' : σ} (h : r.Run steps s s') (hs : r.done s) :
    r.done s' := by
  induction h with
  | nil => exact hs
  | report _ ih => exact ih (hr _ _ hs)
  | malformed _ _ ih => exact ih (hr _ _ hs)
  | node _ _ _ ih₁ ih₂ => exact ih₂ (ih₁ hs)
  | pass _ _ ih => exact ih hs

/-- **Where a traversal asks does not matter**: it ends in the state after all reports, or
    it was settled on the way, and so is that state. -/
theorem Run.eq_or_done {steps : List Step} {s s' : σ} (h : r.Run steps s s') :
    s' = (steps.flatMap Step.violations).foldl r.report s ∨
      r.done s' ∧ r.done ((steps.flatMap Step.violations).foldl r.report s) := by
  induction h with
  | nil => exact Or.inl rfl
  | report _ ih => exact ih
  | malformed hc _ ih =>
    rw [List.flatMap_cons, List.foldl_append, Step.violations, violations_eq, hc]
    exact ih
  | @node role scope c kind rest s s₁ s' hc _ hrest ih₁ ih₂ =>
    rw [List.flatMap_cons, List.foldl_append, Step.violations, violations_eq, hc]
    rcases ih₁ with rfl | ⟨hs₁, hall⟩
    · exact ih₂
    · exact Or.inr ⟨hrest.done hr hs₁, done_foldl hr hall _⟩
  | pass hs hrest _ => exact Or.inr ⟨hrest.done hr hs, done_foldl hr hs _⟩

end

/-! ## The two reporters -/

/-- Keeps whether there was a violation, and is done with the first one. -/
def failFast : Reporter Bool where
  report _ _ := true
  done failed := failed

/-- Keeps the violations in order, and is never done. -/
def collector : Reporter (List Violation) where
  report vs violation := vs ++ [violation]
  done _ := false

theorem failFast_foldl (vs : List Violation) (failed : Bool) :
    vs.foldl failFast.report failed = (failed || !vs.isEmpty) := by
  induction vs generalizing failed with
  | nil => simp
  | cons violation vs ih => rw [List.foldl_cons, ih]; simp [failFast]

theorem collector_foldl (vs kept : List Violation) :
    vs.foldl collector.report kept = kept ++ vs := by
  induction vs generalizing kept with
  | nil => simp
  | cons violation vs ih => rw [List.foldl_cons, ih]; simp [collector]

theorem flatMap_root (strict : Bool) (t : Tree) :
    [Step.visit .node (.root strict) (.root t)].flatMap Step.violations = t.violations strict :=
  List.append_nil _

theorem failFast_traverses_iff {strict failed : Bool} {t : Tree} :
    failFast.Traverses strict t false failed ↔ failed = !(t.violations strict).isEmpty := by
  have hend := failFast_foldl (t.violations strict) false
  rw [Bool.false_or] at hend
  constructor
  · intro h
    have hrun := Run.eq_or_done (fun _ _ _ => rfl) h
    rw [flatMap_root, hend] at hrun
    rcases hrun with heq | ⟨hfailed, hall⟩
    · exact heq
    · exact Eq.trans hfailed (Eq.symm hall)
  · rintro rfl
    rw [← hend, ← flatMap_root]
    exact run_foldl _ _

theorem collector_traverses_iff {strict : Bool} {t : Tree} {vs : List Violation} :
    collector.Traverses strict t [] vs ↔ vs = t.violations strict := by
  have hend := collector_foldl (t.violations strict) []
  constructor
  · intro h
    have hrun := Run.eq_or_done (fun _ _ h => h) h
    rw [flatMap_root, hend] at hrun
    rcases hrun with heq | ⟨hdone, -⟩
    · exact heq
    · cases hdone
  · rintro rfl
    have hrun := run_foldl (r := collector) [.visit .node (.root strict) (.root t)] []
    rwa [flatMap_root, hend] at hrun

end Reporter

/-! ## Accepting and collecting -/

/-- A value is accepted iff it and all below it have no violation. -/
theorem accepts_eq_isEmpty (role : Role) (scope : Scope) (o : Occurrence) :
    accepts role scope o = (violations role scope o).isEmpty := by
  induction hn : sizeOf o.value using Nat.strongRecOn generalizing role scope o with
  | ind n ih =>
    subst hn
    rw [accepts_eq, violations_eq]
    cases hkind : o.value.nodeKind with
    | error fault => rfl
    | ok kind =>
      have hstep : ∀ step ∈ rule role scope o kind,
          step.accepts = true ↔ step.violations = [] := by
        intro step hmem
        cases step with
        | report violation => simp [Step.accepts, Step.violations]
        | visit role' scope' c =>
          have := ih _ (within_rule _ hmem) role' scope' c rfl
          simp [Step.accepts, Step.violations, this]
      rw [Bool.eq_iff_iff, List.all_eq_true, List.isEmpty_iff, List.flatMap_eq_nil_iff]
      exact forall₂_congr hstep

theorem Tree.accepted_iff {strict : Bool} {t : Tree} :
    t.accepted strict = true ↔ t.violations strict = [] := by
  rw [Tree.accepted, accepts_eq_isEmpty, List.isEmpty_iff, Tree.violations]

theorem Tree.isValid_iff {strict : Bool} {t : Tree} :
    t.isValid strict = true ↔ t.kind? = some .program ∧ t.violations strict = [] := by
  rw [Tree.isValid, Bool.and_eq_true, beq_iff_eq, Tree.accepted_iff]

theorem Tree.isValidExpression_iff {strict : Bool} {t : Tree} :
    t.isValidExpression strict = true ↔
      (∃ kind, t.kind? = some kind ∧ kind.isExpression = true) ∧ t.violations strict = [] := by
  rw [Tree.isValidExpression, Bool.and_eq_true, Option.any_eq_true, Tree.accepted_iff]

/-- **Failing fast and collecting agree**, on every value and in both modes.  However a
    fail-fast traversal passes over steps after its first violation, it ends failed iff
    the collected list is not empty; a traversal that collects passes over nothing.  So a
    value is a valid program, or a valid expression, iff its root is one and its list is
    empty. -/
theorem traversals_agree (strict : Bool) (t : Tree) :
    (∀ vs, Reporter.collector.Traverses strict t [] vs ↔ vs = t.violations strict) ∧
    (∀ failed, Reporter.failFast.Traverses strict t false failed ↔
      (failed = true ↔ t.violations strict ≠ [])) ∧
    (t.accepted strict = false ↔ t.violations strict ≠ []) ∧
    (t.isValid strict = true ↔
      t.isObject = true ∧ t.kind? = some .program ∧ t.violations strict = []) ∧
    (t.isValidExpression strict = true ↔
      (∃ kind, t.kind? = some kind ∧ kind.isExpression = true) ∧ t.violations strict = []) := by
  refine ⟨fun vs => Reporter.collector_traverses_iff, fun failed => ?_, ?_, ?_,
    Tree.isValidExpression_iff⟩
  · rw [Reporter.failFast_traverses_iff, Bool.eq_iff_iff, Bool.not_eq_true',
      ← Bool.not_eq_true, List.isEmpty_iff]
  · rw [← Bool.not_eq_true, Tree.accepted_iff]
  · rw [Tree.isValid_iff]
    exact ⟨fun h => ⟨Tree.isObject_of_kind? h.1, h⟩, And.right⟩

end ScriptTree
