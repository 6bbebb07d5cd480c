/-
  Where jumps may stand.

  * `Grammar.Turns`: what the step into a field does to the flags for jumps;
    `Grammar.Way.turns` says that every way into a slot does that.
  * `Tree.Visits.inIteration_iff`, `inSwitch_iff`, `inFunction_iff`: the flags at a visit,
    read off its path.
  * `jumps_placed`: which breaks, continues and returns are charged for where they stand,
    and that nothing else is.
-/
import ScriptTree.Proofs.Tally

namespace ScriptTree

/-! ## The flags behind a step -/

namespace Grammar

variable {t : Tree} {s : Slot} {kind : Kind} {field : String}

/-- What the step into a field does to the flags for jumps.  The body of a function
    expression sets a flag, but unlike that of a declaration it clears none. -/
structure Turns (t : Tree) (kind : Kind) (field : String) (outer inner : Scope) : Prop where
  inIteration : inner.inIteration = true ↔ ¬ EntersFunction t kind field .declaration ∧
    (field = "body" ∧ kind.isIteration = true ∨ outer.inIteration = true)
  inSwitch : inner.inSwitch = true ↔ ¬ EntersFunction t kind field .declaration ∧
    (field = "consequent" ∧ kind = .switchCase ∨ outer.inSwitch = true)
  inFunction : inner.inFunction = true ↔
    (∃ form, EntersFunction t kind field form) ∨ outer.inFunction = true

/-- A step that leads into no loop, switch or function keeps the flags. -/
theorem Turns.keep {outer inner : Scope} (hfunction : ∀ form, ¬ EntersFunction t kind field form)
    (hloop : ¬ (field = "body" ∧ kind.isIteration = true))
    (hswitch : ¬ (field = "consequent" ∧ kind = .switchCase))
    (hiteration : inner.inIteration = outer.inIteration)
    (hinSwitch : inner.inSwitch = outer.inSwitch)
    (hinFunction : inner.inFunction = outer.inFunction) : Turns t kind field outer inner where
  inIteration := by rw [hiteration, and_iff_right (hfunction _), or_iff_right hloop]
  inSwitch := by rw [hinSwitch, and_iff_right (hfunction _), or_iff_right hswitch]
  inFunction := by rw [hinFunction, or_iff_right (not_exists.2 hfunction)]

/-- **The flags for jumps turn as the step into the field says.** -/
theorem Way.turns (h : Way t s kind) (outer : Scope) :
    Turns t kind s.field outer (s.scope outer) := by
  cases h with
  | loop hkind hfield _ hmoves =>
    have hnone : ∀ form, ¬ EntersFunction t kind s.field form := by
      refine not_entersFunction ?_ ?_ <;> rintro rfl <;> cases hkind
    constructor <;> simp [Slot.scope, hmoves, hfield, hkind, Scope.enter, hfield ▸ hnone]
  | switch hfield _ hmoves =>
    have hnone : ∀ form, ¬ EntersFunction t .switchCase s.field form := by
      refine not_entersFunction ?_ ?_ <;> rintro ⟨⟩
    constructor <;> simp [Slot.scope, hmoves, hfield, Scope.enter, hfield ▸ hnone]
  | label hfield _ hmoves =>
    refine .keep (not_entersFunction ?_ ?_) ?_ ?_ ?_ ?_ ?_ <;>
      simp [Slot.scope, hmoves, hfield, enter_labelMoves, Kind.isIteration]
  | program hfield _ hmoves =>
    refine .keep (not_entersFunction ?_ ?_) ?_ ?_ ?_ ?_ ?_ <;>
      simp [Slot.scope, hmoves, hfield, enter_strictMoves, Kind.isIteration]
  | ownCode form hfield _ hmoves =>
    have hbody : s.field ≠ "body" := by rcases hfield with h | h <;> simp [h]
    have hconsequent : s.field ≠ "consequent" := by rcases hfield with h | h <;> simp [h]
    refine .keep (fun _ h => hbody h.1) (fun h => hbody h.1) (fun h => hconsequent h.1) ?_ ?_ ?_ <;>
      simp [Slot.scope, hmoves, enter_strictMoves]
  | functionBody form hfield _ _ hblock hmoves =>
    have hform : EntersFunction t form.kind s.field form := ⟨hfield, rfl, hblock⟩
    cases form with
    | declaration =>
      constructor
      · simp [Slot.scope, hmoves, hform, Rule.FunctionForm.bodyMove, Scope.enter]
      · simp [Slot.scope, hmoves, hform, Rule.FunctionForm.bodyMove, Scope.enter]
      · simp only [Slot.scope, hmoves, Rule.FunctionForm.bodyMove, List.foldl_append]
        exact iff_of_true rfl (Or.inl ⟨_, hform⟩)
    | expression =>
      have hnot : ¬ EntersFunction t Rule.FunctionForm.expression.kind s.field .declaration :=
        fun h => absurd h.2.1 (by decide)
      constructor
      · rw [and_iff_right hnot]
        simp [Slot.scope, hmoves, Rule.FunctionForm.bodyMove, enter_strictMoves, Scope.enter,
          Rule.FunctionForm.kind, Kind.isIteration]
      · rw [and_iff_right hnot]
        simp [Slot.scope, hmoves, hfield, Rule.FunctionForm.bodyMove, enter_strictMoves,
          Scope.enter]
      · simp only [Slot.scope, hmoves, Rule.FunctionForm.bodyMove, List.foldl_append]
        exact iff_of_true rfl (Or.inl ⟨_, hform⟩)
  | plain _ hmoves hplain =>
    have hnone : ∀ form, ¬ EntersFunction t kind s.field form := fun form h =>
      (hplain.function form h.2.1).2 h.2.2
    have hloop : ¬ (s.field = "body" ∧ kind.isIteration = true) := by
      rintro ⟨hfield, hkind⟩
      rw [hplain.loop hfield] at hkind
      cases hkind
    have hscope : s.scope outer = outer := by rw [Slot.scope, hmoves, List.foldl_nil]
    rw [hscope]
    exact .keep hnone hloop (fun h => hplain.switch h.2 h.1) rfl rfl rfl

end Grammar

/-! ## The flags at a visit -/

namespace Tree

variable {strict : Bool} {t : Tree} {v : Visit}

theorem field_of_loopBody {trail : List Selector} (h : t.LoopBody trail) :
    ∃ above, trail = .field "body" :: above := by
  obtain ⟨_, -, h⟩ := h
  exact h.exists_eq

namespace Visits

/-- A visit is in a loop iff its path has the body of one, and behind it no body of a
    function declaration. -/
theorem inIteration_iff (h : t.Visits strict v) :
    v.scope.inIteration = true ↔ Since t.LoopBody (t.FunctionBody .declaration) v.trail := by
  refine flag_iff ?_ rfl ?_ h
  · rintro trail (hloop | hbody)
    · obtain ⟨above, rfl⟩ := field_of_loopBody hloop
      exact ⟨_, _, rfl, by simp⟩
    · obtain ⟨above, rfl⟩ := field_of_functionBody hbody
      exact ⟨_, _, rfl, by simp⟩
  · intro kind s above value outer hat hkind hway
    rw [loopBody_cons_iff hat hkind, functionBody_cons_iff hat hkind]
    exact (hway.turns outer).inIteration

/-- A visit is in a switch iff its path has the statements of a case, and behind them no
    body of a function declaration. -/
theorem inSwitch_iff (h : t.Visits strict v) :
    v.scope.inSwitch = true ↔ Since t.SwitchBody (t.FunctionBody .declaration) v.trail := by
  refine flag_iff ?_ rfl ?_ h
  · rintro trail (hswitch | hbody)
    · obtain ⟨above, rfl⟩ := EntersField.exists_eq hswitch
      exact ⟨_, _, rfl, by simp⟩
    · obtain ⟨above, rfl⟩ := field_of_functionBody hbody
      exact ⟨_, _, rfl, by simp⟩
  · intro kind s above value outer hat hkind hway
    rw [SwitchBody, entersField_cons_iff hat hkind, functionBody_cons_iff hat hkind]
    exact (hway.turns outer).inSwitch

/-- A visit is in a function iff its path has the body of one, which nothing undoes. -/
theorem inFunction_iff (h : t.Visits strict v) :
    v.scope.inFunction = true ↔
      ∃ start, start <:+ v.trail ∧ ∃ form, t.FunctionBody form start := by
  have hsince : v.scope.inFunction = true ↔
      Since (fun start => ∃ form, t.FunctionBody form start) (fun _ => False) v.trail := by
    refine flag_iff ?_ rfl ?_ h
    · rintro trail (⟨form, hbody⟩ | h)
      · obtain ⟨above, rfl⟩ := field_of_functionBody hbody
        exact ⟨_, _, rfl, by simp⟩
      · cases h
    · intro kind s above value outer hat hkind hway
      simp only [functionBody_cons_iff hat hkind, not_false_eq_true, true_and]
      exact (hway.turns outer).inFunction
  rw [hsince, since_never]

end Visits

end Tree

/-! ## What a jump is charged for -/

/-- The kind of the jumps that a fault says to stand in the wrong place. -/
def Fault.jump? : Fault → Option Kind
  | .breakOutside => some .breakStatement
  | .continueOutside => some .continueStatement
  | .returnOutside => some .returnStatement
  | _ => none

theorem Fault.kind_of_jump {f : Fault} {jump : Kind} (hjump : f.jump? = some jump) :
    jump = .breakStatement ∨ jump = .continueStatement ∨ jump = .returnStatement := by
  cases f with
  | breakOutside => exact Or.inl (Option.some.inj hjump).symm
  | continueOutside => exact Or.inr (Or.inl (Option.some.inj hjump).symm)
  | returnOutside => exact Or.inr (Or.inr (Option.some.inj hjump).symm)
  | _ => cases hjump

theorem Fault.mayCharge_of_jump {f : Fault} {jump : Kind} (hjump : f.jump? = some jump) :
    f.mayCharge jump = true := by
  cases f with
  | breakOutside | continueOutside | returnOutside =>
    cases hjump
    rfl
  | _ => cases hjump

/-- A fault about where a jump stands is about no other kind of nodes. -/
theorem Fault.eq_of_jump {f : Fault} {jump kind : Kind} (hjump : f.jump? = some jump)
    (hcharge : f.mayCharge kind = true) : kind = jump := by
  cases f with
  | breakOutside | continueOutside | returnOutside =>
    cases hjump
    exact eq_of_beq hcharge
  | _ => cases hjump

/-- Only a jump is charged for where it stands. -/
theorem Visit.owner_of_jump {v : Visit} {kind : Kind} {w : Violation} (h : w ∈ v.own)
    (hjump : w.fault.jump? = some kind) :
    w.owner = v.occurrence ∧ v.occurrence.value.kind? = some kind := by
  have hcharge : w.fault.mayCharge kind = true := Fault.mayCharge_of_jump hjump
  have hother : ∀ other, other ≠ kind → w.fault.mayCharge other = false := by
    intro other hne
    by_contra hnot
    exact hne (Fault.eq_of_jump hjump (Bool.not_eq_false _ ▸ hnot))
  have hjumps := Fault.kind_of_jump hjump
  obtain ⟨howner, found, hfound, hmay⟩ := owner_of_mayCharge h ⟨kind, hcharge⟩
    (hother _ (by rcases hjumps with rfl | rfl | rfl <;> simp))
    (hother _ (by rcases hjumps with rfl | rfl | rfl <;> simp))
  obtain rfl := Fault.eq_of_jump hjump hmay
  exact ⟨howner, hfound⟩

namespace Tree.Visits

variable {strict : Bool} {t : Tree} {v : Visit}

/-- The faults that say where a jump stands are those that its own rule finds.  What else
    the rule reports could as well be reported of some other kind of nodes. -/
theorem jumps_chargedAt {kind : Kind} {test : Bool} {f : Fault} {rest : List Step} (other : Kind)
    (h : t.Visits strict v) (hkind : v.occurrence.value.kind? = some kind)
    (hobject : kind ≠ .objectExpression) (hmember : kind ≠ .memberExpression)
    (hblock : kind ≠ .blockStatement)
    (hrule : Rule.ofKind kind v.occurrence v.scope = Steps.faultIf test v.occurrence f ++ rest)
    (hf : f.mayCharge other = false) (hrest : Steps.Charges other rest) :
    (f ∈ t.chargedAt strict v.trail ↔ test = true) ∧ (t.chargedAt strict v.trail).count f ≤ 1 := by
  have hlocation : f ∉ Steps.faults (Steps.location v.occurrence) :=
    Steps.charges_location.not_mem_faults hf
  have hbefore : f ∉ Steps.faults [] := List.not_mem_nil
  have hcount : (t.chargedAt strict v.trail).count f = if test then 1 else 0 :=
    h.count_chargedAt hkind hobject hmember hblock [] rest hrule hlocation hbefore
      (hrest.not_mem_faults hf)
  rw [← List.count_pos_iff, hcount]
  cases test <;> simp

end Tree.Visits

/-- **Jumps are charged exactly where they may not stand.**  Nothing but a visited break,
    continue or return is charged for where it stands.  A break is charged iff its path has
    no body of a loop and no case of a switch since the last body of a function declaration;
    a continue iff it has no body of a loop since then; a return iff it has no body of a
    function.  None of them is charged twice. -/
theorem jumps_placed (strict : Bool) (t : Tree) :
    (∀ w ∈ t.violations strict, ∀ jump, w.fault.jump? = some jump →
      ∃ v, t.Visits strict v ∧ w.owner = v.occurrence ∧
        v.occurrence.value.kind? = some jump) ∧
    ∀ v, t.Visits strict v →
      (v.occurrence.value.kind? = some .breakStatement →
        (.breakOutside ∈ t.chargedAt strict v.trail ↔
          ¬ Since (fun start => t.LoopBody start ∨ t.SwitchBody start)
            (t.FunctionBody .declaration) v.trail) ∧
        (t.chargedAt strict v.trail).count .breakOutside ≤ 1) ∧
      (v.occurrence.value.kind? = some .continueStatement →
        (.continueOutside ∈ t.chargedAt strict v.trail ↔
          ¬ Since t.LoopBody (t.FunctionBody .declaration) v.trail) ∧
        (t.chargedAt strict v.trail).count .continueOutside ≤ 1) ∧
      (v.occurrence.value.kind? = some .returnStatement →
        (.returnOutside ∈ t.chargedAt strict v.trail ↔
          ¬ ∃ start, start <:+ v.trail ∧ ∃ form, t.FunctionBody form start) ∧
        (t.chargedAt strict v.trail).count .returnOutside ≤ 1) := by
  constructor
  · intro w hw jump hjump
    obtain ⟨v, hv, hown⟩ := Tree.mem_violations_iff.1 hw
    exact ⟨v, hv, Visit.owner_of_jump hown hjump⟩
  intro v h
  refine ⟨fun hkind => ?_, fun hkind => ?_, fun hkind => ?_⟩
  · obtain ⟨hmem, hcount⟩ := h.jumps_chargedAt .continueStatement hkind (by simp) (by simp)
      (by simp) rfl rfl (Rule.charges_labelUse fun _ => rfl)
    refine ⟨?_, hcount⟩
    rw [hmem, since_or, ← h.inIteration_iff, ← h.inSwitch_iff]
    simp [Scope.breakable]
  · obtain ⟨hmem, hcount⟩ := h.jumps_chargedAt .breakStatement hkind (by simp) (by simp)
      (by simp) rfl rfl (Rule.charges_labelUse fun _ => rfl)
    refine ⟨?_, hcount⟩
    rw [hmem, ← h.inIteration_iff, Bool.not_eq_true', Bool.not_eq_true]
  · obtain ⟨hmem, hcount⟩ := h.jumps_chargedAt .emptyStatement hkind (by simp) (by simp)
      (by simp) rfl rfl Steps.charges_optional
    refine ⟨?_, hcount⟩
    rw [hmem, ← h.inFunction_iff, Bool.not_eq_true', Bool.not_eq_true]

/-- A loop around a function declaration around a break. -/
def Tree.cutOffBreak : Tree :=
  .node .whileStatement [("body", .node .functionDeclaration
    [("body", .node .blockStatement [("body", .array [.node .breakStatement []])])])]

/-- The loop around the function declaration does not count. -/
theorem cutOffBreak_charged : ∃ v, Tree.cutOffBreak.Visits false v ∧
    v.occurrence.value.kind? = some .breakStatement ∧
    .breakOutside ∈ Tree.cutOffBreak.chargedAt false v.trail := by
  have hvisits : Tree.cutOffBreak.Visits false ⟨.node, ⟨[], true, false, false, false⟩,
      ⟨[.element 0, .field "body", .field "body", .field "body"], .node .breakStatement []⟩⟩ :=
    Visit.leads_of_follow (show Visit.follow _ [0, 0, 0] = _ from rfl)
  refine ⟨_, hvisits, rfl, (((jumps_placed _ _).2 _ hvisits).1 rfl).1.2 ?_⟩
  rw [since_or, ← hvisits.inIteration_iff, ← hvisits.inSwitch_iff]
  decide

end ScriptTree
