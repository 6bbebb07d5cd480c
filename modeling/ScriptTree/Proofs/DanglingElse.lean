/-
  Which `if` statements are charged with a dangling `else`.

  * `Rule.elseDangles_iff`: the rule finds an `else` behind an open `if` that takes it.
  * `danglingElse_genuine`: an `if` is charged only if the statement between it and its
    `else` ends in an open `if`, whatever else is wrong with these statements.
-/
import ScriptTree.Proofs.OpenIf
import ScriptTree.Proofs.Tally

namespace ScriptTree

theorem Rule.elseDangles_iff {t : Tree} :
    elseDangles t = true ↔ ∃ a c, t.child? "alternate" = some a ∧
      t.child? "consequent" = some c ∧ c.capturesElse = true := by
  rw [elseDangles, Bool.and_eq_true, Option.isSome_iff_exists, Option.any_eq_true]
  constructor
  · rintro ⟨⟨a, ha⟩, c, hc, hcaptures⟩
    exact ⟨a, c, ha, hc, hcaptures⟩
  · rintro ⟨a, c, ha, hc, hcaptures⟩
    exact ⟨⟨a, ha⟩, c, hc, hcaptures⟩

namespace Tree.Visits

variable {strict : Bool} {t : Tree} {v : Visit}

theorem count_danglingElse (h : t.Visits strict v)
    (hkind : v.occurrence.value.kind? = some .ifStatement) :
    (t.chargedAt strict v.trail).count .danglingElse =
      if Rule.elseDangles v.occurrence.value then 1 else 0 := by
  refine h.count_chargedAt hkind (by simp) (by simp) (by simp)
    (Steps.required v.occurrence "test" .expression v.scope ++
      Steps.required v.occurrence "consequent" .statement v.scope ++
      Steps.optional v.occurrence "alternate" .statement v.scope) []
    ?_ (Steps.not_mem_faults_location rfl) ?_ List.not_mem_nil
  · rw [Rule.ofKind, Rule.ifStatement, List.append_nil]
  · rw [Steps.faults_append, Steps.faults_append, List.mem_append, List.mem_append, not_or, not_or]
    exact ⟨⟨Steps.not_mem_faults_required rfl, Steps.not_mem_faults_required rfl⟩,
      Steps.not_mem_faults_optional rfl⟩

/-- Only an `if` is charged with a dangling `else`, and only if its own rule finds it. -/
theorem owner_of_danglingElse {w : Violation} (h : t.Visits strict v) (hw : w ∈ v.own)
    (hfault : w.fault = .danglingElse) :
    w.owner = v.occurrence ∧ v.occurrence.value.kind? = some .ifStatement ∧
      Rule.elseDangles v.occurrence.value = true := by
  obtain ⟨howner, kind, hkind, hcharge⟩ := Visit.owner_of_mayCharge hw
    ⟨.ifStatement, by rw [hfault]; rfl⟩ (by rw [hfault]; rfl) (by rw [hfault]; rfl)
  rw [hfault, Fault.mayCharge, beq_iff_eq] at hcharge
  subst hcharge
  have hmem : .danglingElse ∈ t.chargedAt strict v.trail := by
    rw [chargedAt_of_visits h, Visit.chargedAt_own hkind (by simp) (by simp)]
    exact List.mem_map.2 ⟨w, hw, hfault⟩
  rw [← List.count_pos_iff, h.count_danglingElse hkind] at hmem
  refine ⟨howner, hkind, ?_⟩
  by_contra hnot
  rw [if_neg hnot] at hmem
  exact absurd hmem (Nat.lt_irrefl 0)

end Tree.Visits

/-- **A dangling `else` is never a false alarm.**  Only a visited `if` with an `else` is
    charged with one, and only if its consequent ends in an open `if`: the alternates of `if`
    statements that have one, and the bodies of labeled, `while`, `with`, `for` and `for in`
    statements, lead from the consequent to an `if` without an `else`.  Conversely, if that
    open `if` has a consequent that is no `if`, the charge is made, and made once. -/
theorem danglingElse_genuine (strict : Bool) (t : Tree) :
    (∀ w ∈ t.violations strict, w.fault = .danglingElse →
      ∃ v, t.Visits strict v ∧ w.owner = v.occurrence ∧
        v.occurrence.value.kind? = some .ifStatement ∧
        ∃ a c, v.occurrence.value.child? "alternate" = some a ∧
          v.occurrence.value.child? "consequent" = some c ∧ c.EndsOpen) ∧
    ∀ v, t.Visits strict v → v.occurrence.value.kind? = some .ifStatement →
      ∀ a c u d, v.occurrence.value.child? "alternate" = some a →
        v.occurrence.value.child? "consequent" = some c → c.OpenEnd u →
        u.child? "consequent" = some d → d.kind? ≠ some .ifStatement →
        (t.chargedAt strict v.trail).count .danglingElse = 1 := by
  constructor
  · intro w hw hfault
    obtain ⟨v, hv, hown⟩ := Tree.mem_violations_iff.1 hw
    obtain ⟨howner, hkind, hdangles⟩ := hv.owner_of_danglingElse hown hfault
    obtain ⟨a, c, ha, hc, hcaptures⟩ := Rule.elseDangles_iff.1 hdangles
    obtain ⟨u, -, hend, -⟩ := Tree.capturesElse_iff.1 hcaptures
    exact ⟨v, hv, howner, hkind, a, c, ha, hc, u, hend⟩
  · intro v hv hkind a c u d ha hc hend hd hother
    have hcaptures : c.capturesElse = true :=
      Tree.capturesElse_iff.2 ⟨u, d, hend, hd, Or.inl hother⟩
    rw [hv.count_danglingElse hkind, if_pos (Rule.elseDangles_iff.2 ⟨a, c, ha, hc, hcaptures⟩)]

/-- The statement `if () while () if () … else …`, with nothing to test, with a string as the
    last consequent and a number as the alternate. -/
def Tree.brokenElse : Tree :=
  .node .ifStatement
    [("consequent", .node .whileStatement
      [("body", .node .ifStatement [("consequent", .string "")])]),
     ("alternate", .number .zero)]

/-- The first `if` is charged, though all of its parts are malformed. -/
theorem brokenElse_charged :
    (Tree.brokenElse.chargedAt false []).count .danglingElse = 1 ∧
    ∃ w ∈ Tree.brokenElse.violations false, w.fault = .danglingElse ∧
      ∃ v, Tree.brokenElse.Visits false v ∧ w.owner = v.occurrence ∧
        v.occurrence.value.kind? = some .ifStatement ∧
        ∃ a c, v.occurrence.value.child? "alternate" = some a ∧
          v.occurrence.value.child? "consequent" = some c ∧ c.EndsOpen := by
  have hcount : (Tree.brokenElse.chargedAt false []).count .danglingElse = 1 :=
    (danglingElse_genuine false Tree.brokenElse).2 (.root false _) .refl rfl _ _ _ _ rfl rfl
      (.body rfl rfl rfl (.here rfl rfl)) rfl (by decide)
  have hmem : .danglingElse ∈ Tree.brokenElse.chargedAt false [] :=
    List.count_pos_iff.1 (by rw [hcount]; exact Nat.one_pos)
  obtain ⟨w, hw, hcharge⟩ := List.mem_filterMap.1 hmem
  have hfault : w.fault = .danglingElse := by
    split at hcharge
    · exact Option.some.inj hcharge
    · cases hcharge
  exact ⟨hcount, w, hw, hfault, (danglingElse_genuine false Tree.brokenElse).1 w hw hfault⟩

end ScriptTree
