/-
  The visits of a traversal.

  * `Visit`: a value that a traversal looks at, with its role and its scope; `Visit.next`
    are the visits that its rule asks for, `Visit.own` what is reported at it.
  * `Tree.Visits`: what the traversal of a tree visits.
  * `mem_violations_iff`: a violation of a tree is reported at a visit, and conversely
    (`violations_eq_nil_iff`: there is none iff nothing is reported at any visit).
-/
import Mathlib.Logic.Relation
import ScriptTree.Validation

namespace ScriptTree

/-- A value has a kind iff it may stand in the position of a node. -/
theorem Tree.nodeKind_eq_ok_iff {t : Tree} {kind : Kind} :
    t.nodeKind = .ok kind ↔ t.kind? = some kind := by
  constructor
  · intro h
    unfold nodeKind at h
    split at h
    · split at h
      · cases h
      · next name hname =>
        split at h
        · cases h
        · next hkind =>
          cases h
          exact Option.bind_eq_some_iff.2 ⟨name, hname, hkind⟩
    · cases h
  · intro h
    obtain ⟨name, hname, hkind⟩ := Option.bind_eq_some_iff.1 h
    simp only [nodeKind, isObject_of_kind? h, if_true, hname, hkind]

theorem Tree.kind?_eq_none_of_nodeKind {t : Tree} {fault : Fault} (h : t.nodeKind = .error fault) :
    t.kind? = none := by
  cases hkind : t.kind? with
  | none => rfl
  | some kind => rw [nodeKind_eq_ok_iff.2 hkind] at h; cases h

theorem Tree.identifierName?_eq_some_iff {t : Tree} {name : String} :
    t.identifierName? = some name ↔
      t.kind? = some .identifier ∧ t.get? "name" = some (.string name) := by
  unfold identifierName?
  constructor
  · intro h
    split at h
    · next hkind =>
      obtain ⟨value, hvalue, hname⟩ := Option.bind_eq_some_iff.1 h
      cases value <;> cases hname
      exact ⟨hkind, hvalue⟩
    · cases h
  · rintro ⟨hkind, hvalue⟩
    rw [if_pos hkind, hvalue]
    rfl

/-- A node of a kind, with some fields. -/
def Tree.node (kind : Kind) (fields : List (String × Tree)) : Tree :=
  .object (("type", .string kind.name) :: fields)

/-- An identifier. -/
def Tree.named (name : String) : Tree := .node .identifier [("name", .string name)]

/-- A value that a traversal looks at. -/
structure Visit where
  role : Role
  scope : Scope
  occurrence : Occurrence

/-! ## The two sorts of steps -/

/-- The visit that a step asks for. -/
def Step.visit? : Step → Option Visit
  | .report _ => none
  | .visit role scope c => some ⟨role, scope, c⟩

/-- The violation that a step reports. -/
def Step.report? : Step → Option Violation
  | .report violation => some violation
  | .visit .. => none

namespace Steps

/-- The visits among some steps, in order. -/
def visits (steps : List Step) : List Visit := steps.filterMap Step.visit?

/-- The violations that some steps report themselves, in order. -/
def reports (steps : List Step) : List Violation := steps.filterMap Step.report?

theorem mem_visits_iff {steps : List Step} {v : Visit} :
    v ∈ visits steps ↔ Step.visit v.role v.scope v.occurrence ∈ steps := by
  rw [visits, List.mem_filterMap]
  constructor
  · rintro ⟨step, hmem, h⟩
    cases step with
    | report => cases h
    | visit => cases h; exact hmem
  · exact fun h => ⟨_, h, rfl⟩

theorem mem_reports_iff {steps : List Step} {w : Violation} :
    w ∈ reports steps ↔ Step.report w ∈ steps := by
  rw [reports, List.mem_filterMap]
  constructor
  · rintro ⟨step, hmem, h⟩
    cases step with
    | report => cases h; exact hmem
    | visit => cases h
  · exact fun h => ⟨_, h, rfl⟩

@[simp] theorem visits_nil : visits [] = [] := rfl

@[simp] theorem reports_nil : reports [] = [] := rfl

@[simp] theorem visits_append (a b : List Step) : visits (a ++ b) = visits a ++ visits b :=
  List.filterMap_append

@[simp] theorem reports_append (a b : List Step) : reports (a ++ b) = reports a ++ reports b :=
  List.filterMap_append

theorem visits_flatMap {α : Type} (l : List α) (f : α → List Step) :
    visits (l.flatMap f) = l.flatMap fun a => visits (f a) := by
  induction l with
  | nil => rfl
  | cons a l ih => rw [List.flatMap_cons, visits_append, ih, List.flatMap_cons]

theorem reports_flatMap {α : Type} (l : List α) (f : α → List Step) :
    reports (l.flatMap f) = l.flatMap fun a => reports (f a) := by
  induction l with
  | nil => rfl
  | cons a l ih => rw [List.flatMap_cons, reports_append, ih, List.flatMap_cons]

@[simp] theorem visits_fault (o : Occurrence) (f : Fault) : visits (fault o f) = [] := rfl

@[simp] theorem reports_fault (o : Occurrence) (f : Fault) : reports (fault o f) = [⟨o, f⟩] := rfl

@[simp] theorem visits_faultIf (test : Bool) (o : Occurrence) (f : Fault) :
    visits (faultIf test o f) = [] := by
  cases test <;> rfl

@[simp] theorem reports_faultIf (test : Bool) (o : Occurrence) (f : Fault) :
    reports (faultIf test o f) = if test then [⟨o, f⟩] else [] := by
  cases test <;> rfl

@[simp] theorem visits_location (o : Occurrence) : visits (location o) = [] := by
  simp [visits, location, List.filterMap_map, Step.visit?, Function.comp_def]

@[simp] theorem reports_location (o : Occurrence) :
    reports (location o) = (locationFaults o.value).map (⟨o, ·⟩) := by
  simp [reports, location, List.filterMap_map, Step.report?, Function.comp_def]

end Steps

/-! ## From visit to visit -/

namespace Visit

/-- The visit of the root of a tree. -/
def root (strict : Bool) (t : Tree) : Visit := ⟨.node, .root strict, .root t⟩

/-- The steps of the rule for a visit.  A malformed value has none. -/
def steps (v : Visit) : List Step :=
  match v.occurrence.value.kind? with
  | none => []
  | some kind => rule v.role v.scope v.occurrence kind

/-- The visits that the rule asks for. -/
def next (v : Visit) : List Visit := Steps.visits v.steps

/-- The violations that are reported at a visit itself. -/
def own (v : Visit) : List Violation :=
  match v.occurrence.value.nodeKind with
  | .error fault => [⟨v.occurrence, fault⟩]
  | .ok _ => Steps.reports v.steps

/-- The violations of a visit and of all below it. -/
def violations (v : Visit) : List Violation :=
  ScriptTree.violations v.role v.scope v.occurrence

/-- One visit is reached from another. -/
def Leads (v w : Visit) : Prop := Relation.ReflTransGen (fun a b => b ∈ a.next) v w

/-- The visit that is reached by the choice of one next visit after the other. -/
def follow (v : Visit) : List Nat → Option Visit
  | [] => some v
  | choice :: choices => v.next[choice]? >>= fun w => w.follow choices

theorem leads_of_follow {v w : Visit} {choices : List Nat} (h : v.follow choices = some w) :
    v.Leads w := by
  induction choices generalizing v with
  | nil =>
    cases h
    exact .refl
  | cons choice choices ih =>
    obtain ⟨u, hu, hw⟩ := Option.bind_eq_some_iff.1 h
    exact .head (List.mem_of_getElem? hu) (ih hw)

theorem steps_of_kind {v : Visit} {kind : Kind} (h : v.occurrence.value.kind? = some kind) :
    v.steps = rule v.role v.scope v.occurrence kind := by
  rw [steps, h]

theorem own_of_kind {v : Visit} {kind : Kind} (h : v.occurrence.value.kind? = some kind) :
    v.own = Steps.reports v.steps := by
  rw [own, Tree.nodeKind_eq_ok_iff.2 h]

/-- A visit is smaller than the one that asks for it. -/
theorem sizeOf_lt_of_mem_next {v w : Visit} (h : w ∈ v.next) :
    sizeOf w.occurrence.value < sizeOf v.occurrence.value := by
  have hstep := Steps.mem_visits_iff.1 h
  cases hkind : v.occurrence.value.kind? with
  | none => rw [steps, hkind] at hstep; cases hstep
  | some kind => rw [steps_of_kind hkind] at hstep; exact within_rule _ hstep

theorem violations_of_error {v : Visit} {fault : Fault}
    (h : v.occurrence.value.nodeKind = .error fault) :
    v.violations = [⟨v.occurrence, fault⟩] := by
  rw [violations, violations_eq, h]

theorem violations_of_kind {v : Visit} {kind : Kind} (h : v.occurrence.value.kind? = some kind) :
    v.violations = v.steps.flatMap Step.violations := by
  rw [violations, violations_eq, Tree.nodeKind_eq_ok_iff.2 h, steps_of_kind h]

theorem mem_flatMap_violations_iff {steps : List Step} {w : Violation} :
    w ∈ steps.flatMap Step.violations ↔
      w ∈ Steps.reports steps ∨ ∃ c ∈ Steps.visits steps, w ∈ c.violations := by
  rw [List.mem_flatMap]
  constructor
  · rintro ⟨step, hmem, hw⟩
    cases step with
    | report violation =>
      obtain rfl := List.mem_singleton.1 hw
      exact Or.inl (Steps.mem_reports_iff.2 hmem)
    | visit role scope c => exact Or.inr ⟨⟨role, scope, c⟩, Steps.mem_visits_iff.2 hmem, hw⟩
  · rintro (h | ⟨c, hc, hw⟩)
    · exact ⟨_, Steps.mem_reports_iff.1 h, List.mem_singleton_self _⟩
    · exact ⟨_, Steps.mem_visits_iff.1 hc, hw⟩

/-- A violation at or below a visit is its own, or one of the next visits. -/
theorem mem_violations_step {v : Visit} {w : Violation} :
    w ∈ v.violations ↔ w ∈ v.own ∨ ∃ c ∈ v.next, w ∈ c.violations := by
  cases hkind : v.occurrence.value.nodeKind with
  | error fault =>
    have hnone := Tree.kind?_eq_none_of_nodeKind hkind
    simp [violations_of_error hkind, own, hkind, next, steps, hnone]
  | ok kind =>
    have hsome := Tree.nodeKind_eq_ok_iff.1 hkind
    rw [violations_of_kind hsome, own_of_kind hsome, mem_flatMap_violations_iff, next]

theorem mem_violations_iff {v : Visit} {w : Violation} :
    w ∈ v.violations ↔ ∃ u, v.Leads u ∧ w ∈ u.own := by
  constructor
  · intro hw
    induction hn : sizeOf v.occurrence.value using Nat.strongRecOn generalizing v with
    | ind n ih =>
      subst hn
      rcases mem_violations_step.1 hw with hown | ⟨c, hc, hw⟩
      · exact ⟨v, .refl, hown⟩
      · obtain ⟨u, hu, hown⟩ := ih _ (sizeOf_lt_of_mem_next hc) hw rfl
        exact ⟨u, .head hc hu, hown⟩
  · rintro ⟨u, hu, hown⟩
    induction hu using Relation.ReflTransGen.head_induction_on with
    | refl => exact mem_violations_step.2 (Or.inl hown)
    | head hc _ ih => exact mem_violations_step.2 (Or.inr ⟨_, hc, ih⟩)

theorem violations_eq_nil_of_next {v : Visit} (hown : v.own = [])
    (hnext : ∀ w ∈ v.next, w.violations = []) : v.violations = [] := by
  refine List.eq_nil_iff_forall_not_mem.2 fun w hw => ?_
  rcases mem_violations_step.1 hw with hw | ⟨c, hc, hw⟩
  · rw [hown] at hw
    cases hw
  · rw [hnext c hc] at hw
    cases hw

/-- Whether nothing is reported at a visit and below it, and it all ends within a depth. -/
def isQuiet : Nat → Visit → Bool
  | 0, _ => false
  | depth + 1, v => v.own.isEmpty && v.next.all (isQuiet depth)

theorem violations_eq_nil_of_isQuiet {v : Visit} {depth : Nat} (h : isQuiet depth v = true) :
    v.violations = [] := by
  induction depth generalizing v with
  | zero => cases h
  | succ depth ih =>
    rw [isQuiet, Bool.and_eq_true, List.isEmpty_iff, List.all_eq_true] at h
    exact violations_eq_nil_of_next h.1 fun w hw => ih (h.2 w hw)

end Visit

/-- What the traversal of a tree visits. -/
def Tree.Visits (strict : Bool) (t : Tree) (v : Visit) : Prop := (Visit.root strict t).Leads v

namespace Tree

variable {strict : Bool} {t : Tree}

theorem Visits.eq_root_or {v : Visit} (h : t.Visits strict v) :
    v = .root strict t ∨ ∃ u, t.Visits strict u ∧ v ∈ u.next :=
  Relation.ReflTransGen.cases_tail h

theorem mem_violations_iff {w : Violation} :
    w ∈ t.violations strict ↔ ∃ v, t.Visits strict v ∧ w ∈ v.own :=
  Visit.mem_violations_iff (v := .root strict t)

theorem violations_eq_nil_iff :
    t.violations strict = [] ↔ ∀ v, t.Visits strict v → v.own = [] := by
  simp only [List.eq_nil_iff_forall_not_mem, mem_violations_iff, not_exists, not_and]
  exact ⟨fun h v hv w => h w v hv, fun h w v hv => h v hv w⟩

/-- In a tree without violations every visit is a node. -/
theorem exists_kind_of_violations_eq_nil (h : t.violations strict = []) {v : Visit}
    (hv : t.Visits strict v) : ∃ kind, v.occurrence.value.kind? = some kind := by
  have hown := violations_eq_nil_iff.1 h v hv
  cases hkind : v.occurrence.value.nodeKind with
  | error fault => rw [Visit.own, hkind] at hown; cases hown
  | ok kind => exact ⟨kind, nodeKind_eq_ok_iff.1 hkind⟩

end Tree

end ScriptTree
