/-
  What is charged about the parts of the nodes of a tree.

  * `Tree.Visits.holds_of_mem_own`: what is reported at a visit is true.
  * `count_chargedAt_le_one`: a fault about a part is reported at most once at a place.
  * `faults_hold`: so it is for a whole tree.
-/
import Mathlib.Data.List.Nodup
import ScriptTree.Proofs.Parts
import ScriptTree.Proofs.Strictness
import ScriptTree.Proofs.Tally

namespace ScriptTree

theorem Tree.holds_of_nodeKind {t : Tree} {f : Fault} (h : t.nodeKind = .error f) (strict : Prop) :
    f.Holds strict t := by
  unfold nodeKind at h
  split at h
  · split at h
    · cases h
      trivial
    · next name hname =>
      split at h
      · next hunknown =>
        cases h
        exact ⟨hname, Kind.ofName?_eq_none_iff.1 hunknown⟩
      · cases h
  · cases h
    trivial

/-- **What is reported at a visit is true.** -/
theorem Tree.Visits.holds_of_mem_own {strict : Bool} {t : Tree} {v : Visit} {w : Violation}
    (h : t.Visits strict v) (hw : w ∈ v.own) :
    w.fault.Holds (t.StrictAt strict w.owner.trail) w.owner.value := by
  cases hnode : v.occurrence.value.nodeKind with
  | error fault =>
    rw [Visit.own, hnode, List.mem_singleton] at hw
    subst hw
    exact Tree.holds_of_nodeKind hnode _
  | ok kind =>
    have hkind := Tree.nodeKind_eq_ok_iff.1 hnode
    obtain ⟨region, hreliable⟩ := Visit.reliable hkind
    have hholds := hreliable.holds w (Visit.own_of_kind hkind ▸ hw)
    refine hholds.congr fun word hword hstrict => ?_
    -- only a visited identifier is charged for a reserved word
    obtain ⟨howner, -⟩ := Visit.owner_of_mayCharge hw ⟨.identifier, by rw [hword]; rfl⟩
      (by rw [hword]; rfl) (by rw [hword]; rfl)
    rw [howner]
    exact h.strict_iff.1 hstrict

/-! ## Once for each part -/

/-- A fault about a part of a value is not charged more often than any is about the part. -/
theorem count_chargedAt_le {f : Fault} {field : Field} (hpart : f.part? = some field)
    (trail : List Selector) (vs : List Violation) :
    (chargedAt trail vs).count f ≤ (vs.filterMap Violation.part?).count (trail, field) := by
  rw [chargedAt, List.count_filterMap, List.count_filterMap]
  refine List.countP_mono_left fun w _ hw => ?_
  rw [beq_iff_eq] at hw ⊢
  split at hw
  · next htrail =>
    cases hw
    rw [Violation.part?, hpart, htrail]
    rfl
  · cases hw

theorem Visit.nodup_parts (v : Visit) : (v.own.filterMap Violation.part?).Nodup := by
  cases hnode : v.occurrence.value.nodeKind with
  | error fault =>
    rw [own, hnode]
    cases hpart : Violation.part? ⟨v.occurrence, fault⟩ <;> simp [hpart]
  | ok kind =>
    have hkind := Tree.nodeKind_eq_ok_iff.1 hnode
    obtain ⟨region, hreliable⟩ := reliable hkind
    rw [own_of_kind hkind]
    exact hreliable.nodup

/-- **At any place a fault about a part is charged at most once.** -/
theorem count_chargedAt_le_one {strict : Bool} {t : Tree} {f : Fault} {field : Field}
    (hpart : f.part? = some field) (trail : List Selector) :
    (t.chargedAt strict trail).count f ≤ 1 := by
  obtain ⟨w, -, hw⟩ := (Visit.root strict t).exists_chargedAt trail
  have hcharged : t.chargedAt strict trail = chargedAt trail w.own := hw
  have hle := count_chargedAt_le hpart trail w.own
  have hone := List.nodup_iff_count_le_one.1 w.nodup_parts (trail, field)
  rw [hcharged]
  omega

/-- **Faults about parts are true and not repeated.**  Each violation stands at its place of
    the tree, and what its fault says of a part of the value there is so; a word is reserved
    as it is in strict code only where code is strict.  At each place of the tree each fault
    about a part is charged at most once. -/
theorem faults_hold (strict : Bool) (t : Tree) :
    (∀ w ∈ t.violations strict, t.at? w.owner.trail = some w.owner.value ∧
      w.fault.Holds (t.StrictAt strict w.owner.trail) w.owner.value) ∧
    ∀ trail f, f.part?.isSome = true → (t.chargedAt strict trail).count f ≤ 1 := by
  constructor
  · intro w hw
    obtain ⟨v, hv, hown⟩ := Tree.mem_violations_iff.1 hw
    exact ⟨Tree.at?_owner hw, hv.holds_of_mem_own hown⟩
  · intro trail f hf
    obtain ⟨field, hpart⟩ := Option.isSome_iff_exists.1 hf
    exact count_chargedAt_le_one hpart trail

/-- The expression `++(;)` as a unary one: its operator is none, and its argument is a
    statement. -/
def Tree.brokenUnary : Tree :=
  .node .unaryExpression [("operator", .string "++"), ("argument", .node .emptyStatement [])]

/-- The statement is charged once, as what stands in the argument. -/
theorem brokenUnary_charged : ∃ w ∈ Tree.brokenUnary.violations false,
    w.fault = .misplaced (.named "argument") .expression .emptyStatement ∧
    (∃ child, w.owner.value.part? (.named "argument") = some child ∧
      child.kind? = some .emptyStatement ∧
        Category.expression.contains .emptyStatement = false) ∧
    (Tree.brokenUnary.chargedAt false []).count w.fault ≤ 1 := by
  have hown : (⟨.root Tree.brokenUnary,
      .misplaced (.named "argument") .expression .emptyStatement⟩ : Violation) ∈
        (Visit.root false Tree.brokenUnary).own := by
    rw [show (Visit.root false Tree.brokenUnary).own = [_, _] from rfl]
    exact List.mem_cons_of_mem _ List.mem_cons_self
  have hmem := Tree.mem_violations_iff.2 ⟨_, Relation.ReflTransGen.refl, hown⟩
  exact ⟨_, hmem, rfl, ((faults_hold _ _).1 _ hmem).2, (faults_hold _ _).2 _ _ rfl⟩

end ScriptTree
