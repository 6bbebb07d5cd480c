/-
  Values that stand where a node must and are none.

  * `Tree.Malformed`: what is wrong with such a value.
  * `Visit.mem_violations_of_leads`: at and below the trail of a visit, only what the visit
    leads to is charged; a malformed value leads to nothing.
  * `violations_placed`: every violation is at a place of the tree, and a malformed value has
    exactly one, and none inside.
-/
import Mathlib.Data.List.Pairwise
import ScriptTree.Proofs.Tally

namespace ScriptTree

/-- What keeps a value from being a node: it is no object, its type is no text, or its type
    is none of the known ones. -/
inductive Tree.Malformed : Tree → Fault → Prop
  | notObject {t} : t.isObject = false → Malformed t (.notNode t.describe)
  | untyped {t} : t.isObject = true → (∀ name, t.get? "type" ≠ some (.string name)) →
      Malformed t .missingType
  | unknown {t name} : t.get? "type" = some (.string name) →
      (∀ kind : Kind, kind.name ≠ name) → Malformed t (.unknownType name)

namespace Tree

theorem typeName?_eq_some_iff {t : Tree} {name : String} :
    t.typeName? = some name ↔ t.get? "type" = some (.string name) := by
  unfold typeName?
  rw [Option.bind_eq_bind, Option.bind_eq_some_iff]
  constructor
  · rintro ⟨value, hvalue, hname⟩
    cases value <;> cases hname
    exact hvalue
  · exact fun h => ⟨_, h, rfl⟩

theorem nodeKind_eq_error_iff {t : Tree} {fault : Fault} :
    t.nodeKind = .error fault ↔ t.Malformed fault := by
  constructor
  · intro h
    unfold nodeKind at h
    split at h
    · next hobject =>
      split at h
      · next hnone =>
        cases h
        refine .untyped hobject fun name hname => ?_
        rw [typeName?_eq_some_iff.2 hname] at hnone
        cases hnone
      · next name hname =>
        split at h
        · next hunknown =>
          cases h
          exact .unknown (typeName?_eq_some_iff.1 hname) (Kind.ofName?_eq_none_iff.1 hunknown)
        · cases h
    · next hobject =>
      cases h
      exact .notObject (Bool.not_eq_true _ ▸ hobject)
  · rintro (hobject | ⟨hobject, htype⟩ | ⟨htype, hunknown⟩)
    · simp [nodeKind, hobject]
    · have hnone : t.typeName? = none :=
        Option.eq_none_iff_forall_ne_some.2 fun name h => htype name (typeName?_eq_some_iff.1 h)
      simp [nodeKind, hobject, hnone]
    · simp [nodeKind, isObject_of_get? htype, typeName?_eq_some_iff.2 htype,
        Kind.ofName?_eq_none_iff.2 hunknown]

end Tree

/-! ## Which values are charged -/

/-- What stands in a slot is not `null`. -/
theorem Slot.Holds.ne_null {s : Slot} {o c : Occurrence} (h : s.Holds o c) :
    c.value ≠ .null := by
  cases h with
  | child _ hc => exact (Tree.child?_eq_some_iff.1 (Occurrence.child?_eq_some_iff.1 hc).1).2
  | element _ hnull _ => exact hnull
  | value _ _ hc => exact (Tree.child?_eq_some_iff.1 (Occurrence.child?_eq_some_iff.1 hc).1).2

theorem Tree.Visits.eq_null {strict : Bool} {t : Tree} {v : Visit} (h : t.Visits strict v)
    (hnull : v.occurrence.value = .null) : t = .null := by
  rcases h.eq_root_or with rfl | ⟨u, -, hnext⟩
  · exact hnull
  · obtain ⟨s, -, hholds, -⟩ := Visit.exists_slot_of_mem_next hnext
    exact absurd hnull hholds.ne_null

/-- A violation is charged to an object, unless it says that the value is none. -/
theorem Visit.owner_cases {v : Visit} {w : Violation} (h : w ∈ v.own) :
    (w.owner.value.isObject = true ∧ ∀ found, w.fault ≠ .notNode found) ∨
      (w.owner = v.occurrence ∧ w.owner.value.isObject = false ∧
        w.fault = .notNode w.owner.value.describe) := by
  cases hnode : v.occurrence.value.nodeKind with
  | error fault =>
    rw [own, hnode, List.mem_singleton] at h
    subst h
    cases Tree.nodeKind_eq_error_iff.1 hnode with
    | notObject hobject => exact Or.inr ⟨rfl, hobject, rfl⟩
    | untyped hobject _ => exact Or.inl ⟨hobject, by simp⟩
    | unknown htype _ => exact Or.inl ⟨Tree.isObject_of_get? htype, by simp⟩
  | ok kind =>
    have hkind := Tree.nodeKind_eq_ok_iff.1 hnode
    refine Or.inl ⟨isObject_of_mem_own hkind h, fun found hfound => ?_⟩
    have hcharge := mayCharge_of_mem_own hkind h
    rw [hfound] at hcharge
    cases hcharge

/-! ## At and below a visit -/

namespace Visit

variable {v u : Visit} {w : Violation}

/-- Below one of the next visits only that visit charges anything. -/
theorem mem_violations_of_mem_next (hu : u ∈ v.next) (hw : w ∈ v.violations)
    (hsuffix : u.trail <:+ w.owner.trail) : w ∈ u.violations := by
  rcases mem_violations_step.1 hw with hown | ⟨c, hc, hw⟩
  · exact absurd hsuffix (not_suffix_owner hown hu)
  · by_cases hne : u = c
    · exact hne ▸ hw
    · have : Std.Symm fun a b : Visit => Apart a.trail b.trail := ⟨fun _ _ => Apart.symm⟩
      have hapart := v.pairwise_next.forall hu hc hne
      exact absurd (suffix_of_mem_violations hw) (hapart _ hsuffix)

/-- **At and below the trail of a visit only the visit charges anything.** -/
theorem mem_violations_of_leads (hu : v.Leads u) (hw : w ∈ v.violations)
    (hsuffix : u.trail <:+ w.owner.trail) : w ∈ u.violations := by
  induction hu using Relation.ReflTransGen.head_induction_on with
  | refl => exact hw
  | head hc hleads ih =>
    exact ih (mem_violations_of_mem_next hc hw ((Leads.suffix hleads).trans hsuffix))

end Visit

/-- **Violations are at places of the tree, and a malformed value has one.**  Each violation
    stands at the root or at a place that fields and elements lead to.  It is charged to an
    object, or says that the value is none and of what sort it is; `null` is charged only as
    the root.  A malformed value in the position of a node is charged with what is wrong with
    it and with nothing else, and no violation is charged to anything inside it. -/
theorem violations_placed (strict : Bool) (t : Tree) :
    (∀ w ∈ t.violations strict,
      t.at? w.owner.trail = some w.owner.value ∧
      ((∀ found, w.fault ≠ .notNode found) → w.owner.value.isObject = true) ∧
      (∀ found, w.fault = .notNode found →
        w.owner.value.isObject = false ∧ w.owner.value.describe = found) ∧
      (w.owner.value = .null → t = .null)) ∧
    ∀ v f, t.Visits strict v → v.occurrence.value.Malformed f →
      t.chargedAt strict v.trail = [f] ∧
      ∀ w ∈ t.violations strict, v.trail <:+ w.owner.trail → w = ⟨v.occurrence, f⟩ := by
  refine ⟨fun w hw => ⟨Tree.at?_owner hw, ?_⟩, fun v f hv hf => ⟨?_, fun w hw hsuffix => ?_⟩⟩
  · obtain ⟨v, hv, hown⟩ := Tree.mem_violations_iff.1 hw
    rcases Visit.owner_cases hown with ⟨hobject, hfault⟩ | ⟨howner, hobject, hfault⟩
    · refine ⟨fun _ => hobject, fun found h => absurd h (hfault found), fun hnull => ?_⟩
      rw [hnull] at hobject
      cases hobject
    · refine ⟨fun h => absurd hfault (h _), fun found h => ⟨hobject, ?_⟩, fun hnull => ?_⟩
      · exact Fault.notNode.inj (hfault.symm.trans h)
      · exact hv.eq_null (howner ▸ hnull)
  · rw [Tree.chargedAt_of_visits hv, Visit.own, Tree.nodeKind_eq_error_iff.2 hf]
    exact List.filterMap_cons_some (if_pos rfl)
  · have hmem := Visit.mem_violations_of_leads hv hw hsuffix
    rwa [Visit.violations_of_error (Tree.nodeKind_eq_error_iff.2 hf), List.mem_singleton] at hmem

/-- A function with `true` as its parameter, and with a body of an unknown type that holds
    `null` where statements stand. -/
def Tree.brokenFunction : Tree :=
  .node .functionExpression [("params", .array [.bool true]),
    ("body", .object [("type", .string "Block"), ("body", .array [.null])])]

/-- The parameter and the body have a violation each, and what the body holds has none. -/
theorem brokenFunction_charged : ∃ param body,
    Tree.brokenFunction.Visits false param ∧ Tree.brokenFunction.Visits false body ∧
    Tree.brokenFunction.chargedAt false param.trail = [.notNode "boolean"] ∧
    Tree.brokenFunction.chargedAt false body.trail = [.unknownType "Block"] ∧
    (∀ w ∈ Tree.brokenFunction.violations false,
      body.trail <:+ w.owner.trail → w = ⟨body.occurrence, .unknownType "Block"⟩) ∧
    ∃ w ∈ Tree.brokenFunction.violations false,
      w.fault = .notNode "boolean" ∧ w.owner.value.isObject = false := by
  have hparam : Tree.brokenFunction.Visits false _ :=
    Visit.leads_of_follow (show Visit.follow _ [0] = some _ from rfl)
  have hbody : Tree.brokenFunction.Visits false _ :=
    Visit.leads_of_follow (show Visit.follow _ [1] = some _ from rfl)
  have hmalformed : Tree.Malformed (.object [("type", .string "Block"), ("body", .array [.null])])
      (.unknownType "Block") := .unknown rfl (by intro kind; cases kind <;> decide)
  have hunknown := (violations_placed _ _).2 _ _ hbody hmalformed
  have hmem := Tree.mem_violations_iff.2 ⟨_, hparam, List.mem_singleton_self _⟩
  exact ⟨_, _, hparam, hbody, ((violations_placed _ _).2 _ _ hparam (.notObject rfl)).1,
    hunknown.1, hunknown.2, _, hmem, rfl, (((violations_placed _ _).1 _ hmem).2.2.1 _ rfl).1⟩

end ScriptTree
