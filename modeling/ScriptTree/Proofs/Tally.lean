/-
  What a node is charged with, fault by fault.

  * `Steps.faults`: the faults that some steps report, in order.
  * `Tree.Visits.chargedAt_eq`: a visited node is charged with the faults of its location,
    and then with those of the rule of its kind; `count_chargedAt` counts one of them that
    the rule tests in one place.
  * `Visit.owner_of_mayCharge`: a fault that is about some kinds of nodes is charged to a
    visited node of one of these kinds.
-/
import ScriptTree.Proofs.Charge
import ScriptTree.Proofs.Path

namespace ScriptTree

namespace Steps

variable {o : Occurrence} {scope : Scope} {f : Fault}

/-- The faults that some steps report, in order. -/
def faults (steps : List Step) : List Fault := (reports steps).map Violation.fault

@[simp] theorem faults_nil : faults [] = [] := rfl

@[simp] theorem faults_append (a b : List Step) : faults (a ++ b) = faults a ++ faults b := by
  rw [faults, reports_append, List.map_append]
  rfl

theorem faults_flatMap {α : Type} (l : List α) (g : α → List Step) :
    faults (l.flatMap g) = l.flatMap fun a => faults (g a) := by
  rw [faults, reports_flatMap, List.map_flatMap]
  rfl

@[simp] theorem faults_fault : faults (fault o f) = [f] := rfl

@[simp] theorem faults_faultIf {test : Bool} :
    faults (faultIf test o f) = if test then [f] else [] := by
  cases test <;> rfl

theorem faults_toList (g : Option Fault) : faults (g.toList.flatMap (fault o)) = g.toList := by
  cases g <;> rfl

/-- Steps for nodes of a kind report no fault that is about other nodes. -/
theorem Charges.not_mem_faults {kind : Kind} {steps : List Step} (h : Charges kind steps)
    (hf : f.mayCharge kind = false) : f ∉ faults steps := by
  intro hmem
  obtain ⟨w, hw, rfl⟩ := List.mem_map.1 hmem
  rw [h w hw] at hf
  cases hf

/-! An empty statement has no rule of its own.  A fault that it may not be charged with is
never a matter of a location or of a field. -/

section
variable (hf : f.mayCharge .emptyStatement = false)
include hf

theorem not_mem_faults_location : f ∉ faults (location o) :=
  charges_location.not_mem_faults hf

variable {name : String} {category : Category}

theorem not_mem_faults_required : f ∉ faults (required o name category scope) :=
  charges_required.not_mem_faults hf

theorem not_mem_faults_optional : f ∉ faults (optional o name category scope) :=
  charges_optional.not_mem_faults hf

end

end Steps

/-! ## The owner of a fault -/

theorem Tree.not_mayCharge_of_nodeKind {t : Tree} {f : Fault} (h : t.nodeKind = .error f)
    (kind : Kind) : f.mayCharge kind = false := by
  unfold nodeKind at h
  split at h
  · split at h
    · cases h
      rfl
    · split at h
      · cases h
        rfl
      · cases h
  · cases h
    rfl

namespace Visit

variable {v : Visit} {kind : Kind}

/-- A node that is neither an object literal nor a member is charged itself with all that
    its rule reports. -/
theorem owner_eq_of_mem_own {w : Violation} (hkind : v.occurrence.value.kind? = some kind)
    (hobject : kind ≠ .objectExpression) (hmember : kind ≠ .memberExpression) (h : w ∈ v.own) :
    w.owner = v.occurrence := by
  rcases owner_of_mem_own h with howner | ⟨-, kind', hkind', hattached⟩
  · exact howner
  · obtain rfl := Option.some.inj (hkind.symm.trans hkind')
    rcases hattached.kind_eq with h | h
    · exact absurd h hobject
    · exact absurd h hmember

/-- A fault that is about some kinds of nodes, but not about object literals or members, is
    charged to a node of one of these kinds. -/
theorem owner_of_mayCharge {w : Violation} (h : w ∈ v.own)
    (hsome : ∃ kind, w.fault.mayCharge kind = true)
    (hobject : w.fault.mayCharge .objectExpression = false)
    (hmember : w.fault.mayCharge .memberExpression = false) :
    w.owner = v.occurrence ∧
      ∃ kind, v.occurrence.value.kind? = some kind ∧ w.fault.mayCharge kind = true := by
  cases hnode : v.occurrence.value.nodeKind with
  | error fault =>
    rw [own, hnode, List.mem_singleton] at h
    subst h
    obtain ⟨kind, hkind⟩ := hsome
    rw [Tree.not_mayCharge_of_nodeKind hnode] at hkind
    cases hkind
  | ok kind =>
    have hkind := Tree.nodeKind_eq_ok_iff.1 hnode
    have hcharge := mayCharge_of_mem_own hkind h
    refine ⟨owner_eq_of_mem_own hkind ?_ ?_ h, kind, hkind, hcharge⟩
    · rintro rfl
      rw [hobject] at hcharge
      cases hcharge
    · rintro rfl
      rw [hmember] at hcharge
      cases hcharge

theorem chargedAt_own (hkind : v.occurrence.value.kind? = some kind)
    (hobject : kind ≠ .objectExpression) (hmember : kind ≠ .memberExpression) :
    chargedAt v.trail v.own = v.own.map Violation.fault := by
  rw [chargedAt, ← List.filterMap_eq_map]
  refine List.filterMap_congr fun w hw => ?_
  rw [owner_eq_of_mem_own hkind hobject hmember hw]
  exact if_pos rfl

end Visit

/-! ## The faults at a visit -/

namespace Tree.Visits

variable {strict : Bool} {t : Tree} {v : Visit} {kind : Kind} {f : Fault}

/-- Only a block may be visited as something else than a node by itself. -/
theorem steps_eq (h : t.Visits strict v) (hkind : v.occurrence.value.kind? = some kind)
    (hblock : kind ≠ .blockStatement) :
    v.steps = Steps.location v.occurrence ++ Rule.ofKind kind v.occurrence v.scope := by
  rw [Visit.steps_of_kind hkind, h.role_eq_node hkind hblock]
  rfl

/-- What is reported at a node and has nothing to do with its location is reported by the
    rule of its kind. -/
theorem mem_faults_ofKind {w : Violation} (h : t.Visits strict v)
    (hkind : v.occurrence.value.kind? = some kind) (hblock : kind ≠ .blockStatement)
    (hf : w.fault.mayCharge .emptyStatement = false) (hw : w ∈ v.own) :
    w.fault ∈ Steps.faults (Rule.ofKind kind v.occurrence v.scope) := by
  rw [Visit.own_of_kind hkind, h.steps_eq hkind hblock] at hw
  have hmem := List.mem_map_of_mem (f := Violation.fault) hw
  rw [← Steps.faults, Steps.faults_append] at hmem
  exact (List.mem_append.1 hmem).resolve_left (Steps.not_mem_faults_location hf)

section
variable (h : t.Visits strict v) (hkind : v.occurrence.value.kind? = some kind)
  (hobject : kind ≠ .objectExpression) (hmember : kind ≠ .memberExpression)
  (hblock : kind ≠ .blockStatement)
include h hkind hobject hmember hblock

/-- **A node is charged with the faults of its location and those of its rule**, in this
    order, and with nothing else. -/
theorem chargedAt_eq : t.chargedAt strict v.trail =
    Steps.faults (Steps.location v.occurrence) ++
      Steps.faults (Rule.ofKind kind v.occurrence v.scope) := by
  rw [chargedAt_of_visits h, Visit.chargedAt_own hkind hobject hmember, Visit.own_of_kind hkind,
    h.steps_eq hkind hblock, ← Steps.faults_append]
  rfl

/-- A fault that the rule of a node tests in one place is charged once if the test says so,
    and not at all otherwise. -/
theorem count_chargedAt {test : Bool} (before after : List Step)
    (hrule : Rule.ofKind kind v.occurrence v.scope =
      before ++ (Steps.faultIf test v.occurrence f ++ after))
    (hlocation : f ∉ Steps.faults (Steps.location v.occurrence))
    (hbefore : f ∉ Steps.faults before) (hafter : f ∉ Steps.faults after) :
    (t.chargedAt strict v.trail).count f = if test then 1 else 0 := by
  rw [h.chargedAt_eq hkind hobject hmember hblock, hrule]
  simp only [Steps.faults_append, List.count_append, List.count_eq_zero.2 hlocation,
    List.count_eq_zero.2 hbefore, List.count_eq_zero.2 hafter, Steps.faults_faultIf]
  cases test <;> simp

end

end Tree.Visits

end ScriptTree
