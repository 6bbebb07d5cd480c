/-
  The `if` and `else` structure of a tree.

  * `Tree.children`: the values in the slots of a node, which are what is visited next
    (`Visits.map_value_next`); `Tree.parts`: those that the node does not end with.
  * `Tree.skeleton`: how the statements of a tree stand in each other.
  * `endsOpen_skeleton_iff`, `faithful_skeleton_iff`: what is printed of a tree is read
    again as it was iff no consequent before an `else` ends in an `if` without one.
-/
import ScriptTree.Proofs.OpenIf
import ScriptTree.Proofs.Path
import ScriptTree.Proofs.Skeleton

namespace ScriptTree

/-- The fields of the statements that a statement ends with. -/
def Kind.endFields : Kind → List String
  | .ifStatement => ["consequent", "alternate"]
  | kind => if kind.endsWithBody then ["body"] else []

theorem Kind.endFields_of_ne {kind : Kind} (h : kind ≠ .ifStatement) :
    kind.endFields = if kind.endsWithBody then ["body"] else [] := by
  unfold endFields
  split
  · exact absurd rfl h
  · rfl

/-- The values in a slot of a node. -/
def Slot.values (s : Slot) (t : Tree) : List Tree := (s.occupants (.root t)).map Occurrence.value

namespace Tree

/-- The values in all slots of a node. -/
def children (t : Tree) : List Tree :=
  match t.kind? with
  | none => []
  | some kind => (Grammar.slotsOfKind t kind).flatMap fun s => s.values t

/-- The values in the slots of a node, but for the statements that it ends with. -/
def parts (t : Tree) : List Tree :=
  match t.kind? with
  | none => []
  | some kind => ((Grammar.slotsOfKind t kind).filter fun s => s.field ∉ kind.endFields).flatMap
      fun s => s.values t

variable {t c : Tree}

theorem sizeOf_lt_of_mem_values {s : Slot} (h : c ∈ s.values t) : sizeOf c < sizeOf t := by
  obtain ⟨o, ho, rfl⟩ := List.mem_map.1 h
  rcases Slot.mem_occupants_iff.1 ho with ⟨-, hc⟩ | ⟨-, -, hmem⟩ | ⟨-, hmem, hc⟩
  · exact Occurrence.sizeOf_lt_of_child? hc
  · obtain ⟨list, elements, hlist, helements, hvalue⟩ := mem_indexed_iff.1 hmem
    exact Occurrence.sizeOf_lt_of_element (o := .root t) hlist helements
      (List.mem_of_getElem? hvalue)
  · obtain ⟨list, elements, hlist, helements, hvalue⟩ := mem_indexed_iff.1 hmem
    exact Nat.lt_trans (Occurrence.sizeOf_lt_of_child? hc)
      (Occurrence.sizeOf_lt_of_element (o := .root t) hlist helements
        (List.mem_of_getElem? hvalue))

theorem sizeOf_lt_of_mem_parts (h : c ∈ t.parts) : sizeOf c < sizeOf t := by
  unfold parts at h
  split at h
  · cases h
  · obtain ⟨s, -, hc⟩ := List.mem_flatMap.1 h
    exact sizeOf_lt_of_mem_values hc

/-- The `if` and `else` structure of a tree.  A statement that is missing at the end of
    another one counts as an empty part. -/
def skeleton (t : Tree) : Skeleton :=
  let parts := t.parts.attach.map fun ⟨c, _⟩ => c.skeleton
  let ending (name : String) :=
    ((t.child? name).attach.map fun ⟨c, _⟩ => c.skeleton).getD (.group [])
  if t.kind? = some .ifStatement then
    if (t.child? "alternate").isSome then
      .both parts (ending "consequent") (ending "alternate")
    else .bare parts (ending "consequent")
  else if t.kind?.any Kind.endsWithBody then .under parts (ending "body")
  else .group parts
  termination_by sizeOf t
  decreasing_by
    · exact sizeOf_lt_of_mem_parts ‹_›
    · exact sizeOf_lt_of_child? ‹_›

/-- The skeleton of a statement at the end of a tree. -/
def ending (t : Tree) (name : String) : Skeleton :=
  ((t.child? name).map skeleton).getD (.group [])

theorem ending_of_child? {name : String} (h : t.child? name = some c) :
    t.ending name = c.skeleton := by
  rw [ending, h]
  rfl

theorem skeleton_eq (t : Tree) :
    t.skeleton =
      if t.kind? = some .ifStatement then
        if (t.child? "alternate").isSome then
          .both (t.parts.map skeleton) (t.ending "consequent") (t.ending "alternate")
        else .bare (t.parts.map skeleton) (t.ending "consequent")
      else if t.kind?.any Kind.endsWithBody then
        .under (t.parts.map skeleton) (t.ending "body")
      else .group (t.parts.map skeleton) := by
  have hparts : (t.parts.attach.map fun ⟨c, _⟩ => c.skeleton) = t.parts.map skeleton :=
    List.attach_map_val (l := t.parts) (f := skeleton)
  have hending : ∀ name, ((t.child? name).attach.map fun ⟨c, _⟩ => c.skeleton).getD (.group []) =
      t.ending name := fun name =>
    congrArg (Option.getD · _) (Option.attach_map_val (o := t.child? name) (f := skeleton))
  rw [skeleton, hparts]
  simp only [hending]

theorem skeleton_of_both {a : Tree} (hkind : t.kind? = some .ifStatement)
    (ha : t.child? "alternate" = some a) :
    t.skeleton = .both (t.parts.map skeleton) (t.ending "consequent") a.skeleton := by
  rw [skeleton_eq, if_pos hkind, ← ending_of_child? ha, ha]
  rfl

theorem skeleton_of_bare (hkind : t.kind? = some .ifStatement)
    (hnone : t.child? "alternate" = none) :
    t.skeleton = .bare (t.parts.map skeleton) (t.ending "consequent") := by
  rw [skeleton_eq, if_pos hkind, hnone]
  rfl

theorem skeleton_of_under {kind : Kind} (hkind : t.kind? = some kind)
    (hends : kind.endsWithBody = true) :
    t.skeleton = .under (t.parts.map skeleton) (t.ending "body") := by
  have hne : t.kind? ≠ some .ifStatement := by
    rw [hkind]
    rintro ⟨⟩
    cases hends
  have hany : t.kind?.any Kind.endsWithBody = true := by rw [hkind]; exact hends
  rw [skeleton_eq, if_neg hne, if_pos hany]

theorem skeleton_of_group (hif : t.kind? ≠ some .ifStatement)
    (hends : ¬ t.kind?.any Kind.endsWithBody = true) :
    t.skeleton = .group (t.parts.map skeleton) := by
  rw [skeleton_eq, if_neg hif, if_neg hends]

/-- The skeleton of a statement ends as the statement does. -/
theorem endsOpen_skeleton_iff : t.skeleton.endsOpen = true ↔ t.EndsOpen := by
  constructor
  · induction hn : sizeOf t using Nat.strongRecOn generalizing t with
    | ind n ih =>
      subst hn
      intro h
      -- a statement ends in an alternate, in a body, or by itself
      by_cases hif : t.kind? = some .ifStatement
      · cases ha : t.child? "alternate" with
        | none => exact ⟨t, .here hif ha⟩
        | some a =>
          rw [skeleton_of_both hif ha] at h
          obtain ⟨u, hu⟩ := ih _ (sizeOf_lt_of_child? ha) rfl h
          exact ⟨u, .alternate hif ha hu⟩
      by_cases hends : t.kind?.any Kind.endsWithBody = true
      · obtain ⟨kind, hkind, hends⟩ := (Option.any_eq_true _ _).1 hends
        rw [skeleton_of_under hkind hends, Skeleton.endsOpen] at h
        cases hb : t.child? "body" with
        | none =>
          simp [ending, hb, Skeleton.endsOpen] at h
        | some b =>
          rw [ending_of_child? hb] at h
          obtain ⟨u, hu⟩ := ih _ (sizeOf_lt_of_child? hb) rfl h
          exact ⟨u, .body hkind hends hb hu⟩
      · rw [skeleton_of_group hif hends] at h
        cases h
  · rintro ⟨u, hu⟩
    induction hu with
    | here hkind hnone =>
      rw [skeleton_of_bare hkind hnone]
      rfl
    | alternate hkind ha _ ih =>
      rw [skeleton_of_both hkind ha]
      exact ih
    | body hkind hends hb _ ih =>
      rw [skeleton_of_under hkind hends, Skeleton.endsOpen, ending_of_child? hb]
      exact ih

/-! ## Where the statements stand -/

theorem shape_of_endField {kind : Kind} :
    ∀ s ∈ Grammar.slotsOfKind t kind, s.field ∈ kind.endFields →
      s.shape = .one ∨ s.shape = .maybe := by
  cases kind with
  | ifStatement | labeledStatement | whileStatement | withStatement | forStatement
  | forInStatement =>
    simp [Grammar.slotsOfKind, Grammar.loopSlot, Slot.one, Slot.maybe, Slot.behind]
  | _ => exact fun _ _ h => absurd h List.not_mem_nil

theorem exists_slot_of_endField {kind : Kind} {name : String} (h : name ∈ kind.endFields) :
    ∃ s ∈ Grammar.slotsOfKind t kind, s.field = name ∧ (s.shape = .one ∨ s.shape = .maybe) := by
  cases kind with
  | ifStatement | labeledStatement | whileStatement | withStatement | forStatement
  | forInStatement =>
    revert h
    simp only [Kind.endFields, Kind.endsWithBody, Grammar.slotsOfKind, Grammar.loopSlot, Slot.one,
      Slot.maybe, Slot.behind]
    revert name
    simp
  | _ => cases h

theorem mem_values_iff {s : Slot} (hshape : s.shape = .one ∨ s.shape = .maybe) :
    c ∈ s.values t ↔ t.child? s.field = some c := by
  have hvalues : s.values t = (t.child? s.field).toList := by
    unfold Slot.values Slot.occupants
    rcases hshape with h | h <;> rw [h] <;> cases hc : t.child? s.field <;>
      simp [Occurrence.child?, Occurrence.root, hc]
  rw [hvalues, Option.mem_toList]

/-- A value in a slot is a part, or one of the statements at the end. -/
theorem mem_children_iff {kind : Kind} (hkind : t.kind? = some kind) :
    c ∈ t.children ↔ c ∈ t.parts ∨ ∃ name ∈ kind.endFields, t.child? name = some c := by
  simp only [children, parts, hkind, List.mem_flatMap, List.mem_filter, decide_eq_true_eq]
  constructor
  · rintro ⟨s, hs, hc⟩
    by_cases hfield : s.field ∈ kind.endFields
    · exact Or.inr ⟨s.field, hfield, (mem_values_iff (shape_of_endField s hs hfield)).1 hc⟩
    · exact Or.inl ⟨s, ⟨hs, hfield⟩, hc⟩
  · rintro (⟨s, ⟨hs, -⟩, hc⟩ | ⟨name, hname, hc⟩)
    · exact ⟨s, hs, hc⟩
    · obtain ⟨s, hs, rfl, hshape⟩ := exists_slot_of_endField hname
      exact ⟨s, hs, (mem_values_iff hshape).2 hc⟩

/-- What stands between an `if` and its `else` does not end in an `if` without one. -/
def Separated (t : Tree) : Prop :=
  t.kind? = some .ifStatement → ∀ a c, t.child? "alternate" = some a →
    t.child? "consequent" = some c → ¬ c.EndsOpen

theorem faithful_ending_iff {name : String} :
    (t.ending name).Faithful ↔ ∀ c, t.child? name = some c → c.skeleton.Faithful := by
  cases h : t.child? name with
  | none => simp [ending, h, Skeleton.Faithful, Skeleton.FaithfulParts]
  | some c => simp [ending_of_child? h]

theorem faithfulParts_map_iff {values : List Tree} :
    Skeleton.FaithfulParts (values.map skeleton) ↔ ∀ c ∈ values, c.skeleton.Faithful := by
  simp [Skeleton.faithfulParts_iff]

theorem endsOpen_ending_iff {name : String} :
    (t.ending name).endsOpen = false ↔ ∀ c, t.child? name = some c → ¬ c.EndsOpen := by
  cases h : t.child? name with
  | none => simp [ending, h, Skeleton.endsOpen]
  | some c =>
    rw [ending_of_child? h, ← Bool.not_eq_true, endsOpen_skeleton_iff]
    simp

/-- A tree is read again as it was iff the same is true of its children, and what stands
    before its `else`, if it has one, does not end in an open `if`. -/
theorem faithful_skeleton_step :
    t.skeleton.Faithful ↔ t.Separated ∧ ∀ c ∈ t.children, c.skeleton.Faithful := by
  cases hkind : t.kind? with
  | none =>
    have hparts : t.parts = [] := by rw [parts, hkind]
    have hchildren : t.children = [] := by rw [children, hkind]
    have hseparated : t.Separated := fun h => nomatch hkind.symm.trans h
    rw [skeleton_of_group (by simp [hkind]) (by simp [hkind]), hparts, hchildren]
    exact iff_of_true trivial ⟨hseparated, fun _ h => nomatch h⟩
  | some kind =>
    have hchildren : (∀ c ∈ t.children, c.skeleton.Faithful) ↔
        Skeleton.FaithfulParts (t.parts.map skeleton) ∧
          ∀ name ∈ kind.endFields, (t.ending name).Faithful := by
      simp only [mem_children_iff hkind, faithfulParts_map_iff, faithful_ending_iff]
      constructor
      · exact fun h => ⟨fun c hc => h c (Or.inl hc),
          fun name hname c hc => h c (Or.inr ⟨name, hname, hc⟩)⟩
      · rintro ⟨hparts, hending⟩ c (hc | ⟨name, hname, hc⟩)
        · exact hparts c hc
        · exact hending name hname c hc
    rw [hchildren]
    by_cases hif : kind = .ifStatement
    · subst hif
      simp only [Kind.endFields, List.forall_mem_cons, List.not_mem_nil, false_imp_iff,
        implies_true, and_true]
      cases ha : t.child? "alternate" with
      | none =>
        have hseparated : t.Separated := fun _ a _ h => nomatch ha.symm.trans h
        rw [skeleton_of_bare hkind ha, Skeleton.Faithful, and_iff_right hseparated]
        simp [ending, ha, Skeleton.Faithful, Skeleton.FaithfulParts]
      | some a =>
        have hseparated : t.Separated ↔ (t.ending "consequent").endsOpen = false := by
          rw [endsOpen_ending_iff]
          exact ⟨fun h c hc => h hkind a c ha hc, fun h _ _ c _ hc => h c hc⟩
        rw [skeleton_of_both hkind ha, Skeleton.Faithful, hseparated, ending_of_child? ha]
        tauto
    · have hseparated : t.Separated := fun h => absurd (Option.some.inj (hkind.symm.trans h)) hif
      rw [and_iff_right hseparated]
      cases hends : kind.endsWithBody with
      | true =>
        rw [skeleton_of_under hkind hends, Skeleton.Faithful, Kind.endFields_of_ne hif, hends]
        simp
      | false =>
        rw [skeleton_of_group (by simpa [hkind] using hif) (by simp [hkind, hends]),
          Skeleton.Faithful, Kind.endFields_of_ne hif, hends]
        simp

end Tree

/-! ## Over a whole tree -/

theorem Slot.map_value_occupants (s : Slot) (o : Occurrence) :
    (s.occupants o).map Occurrence.value = s.values o.value := by
  have hchild : ∀ p : Occurrence, p.value = o.value →
      (p.child? s.field).toList.map Occurrence.value = (o.value.child? s.field).toList := by
    intro p hp
    rw [Occurrence.child?, hp]
    cases o.value.child? s.field <;> rfl
  have hlist : ∀ f : Occurrence → Tree × Nat → Option Occurrence,
      (∀ pair, (f o pair).map Occurrence.value = (f (.root o.value) pair).map Occurrence.value) →
      ((o.value.indexed s.field).filterMap (f o)).map Occurrence.value =
        ((o.value.indexed s.field).filterMap (f (.root o.value))).map Occurrence.value := by
    intro f hf
    rw [List.map_filterMap, List.map_filterMap]
    exact List.filterMap_congr fun pair _ => hf pair
  have helements := hlist (occupant? · s.field) <| by
    rintro ⟨value, index⟩
    cases value <;> rfl
  have hvalues := hlist (recordValue? · s.field) <| by
    rintro ⟨value, index⟩
    simp only [recordValue?, Occurrence.child?, Option.map_map]
    rfl
  unfold Slot.values Slot.occupants
  cases s.shape with
  | one | maybe => exact (hchild o rfl).trans (hchild (.root o.value) rfl).symm
  | list | sparse => exact helements
  | values => exact hvalues

namespace Tree

variable {strict : Bool} {t : Tree} {v : Visit}

/-- What is visited next are the children. -/
theorem Visits.map_value_next (h : t.Visits strict v) :
    v.next.map (fun w => w.occurrence.value) = v.occurrence.value.children := by
  have hslots : ∀ slots : List Slot,
      (slots.flatMap fun s => s.visits v.scope v.occurrence).map (fun w => w.occurrence.value) =
        slots.flatMap fun s => s.values v.occurrence.value := by
    intro slots
    rw [List.map_flatMap]
    refine congrArg (slots.flatMap ·) (funext fun s => ?_)
    rw [Slot.visits, List.map_map, ← s.map_value_occupants v.occurrence]
    rfl
  rw [Visit.next_eq, hslots, Visit.slots, children]
  cases hkind : v.occurrence.value.kind? with
  | none => rfl
  | some kind =>
    cases hrole : v.role with
    | node => rfl
    | functionBody =>
      obtain rfl := Option.some.inj (hkind.symm.trans (h.kind_of_functionBody hrole))
      rfl

theorem Visits.exists_of_mem_children {c : Tree} (h : t.Visits strict v)
    (hc : c ∈ v.occurrence.value.children) : ∃ w, t.Visits strict w ∧ w.occurrence.value = c := by
  rw [← h.map_value_next] at hc
  obtain ⟨w, hw, hvalue⟩ := List.mem_map.1 hc
  exact ⟨w, h.tail hw, hvalue⟩

/-- A tree is read again as it was iff that is so for all that is visited in it. -/
theorem faithful_skeleton_iff :
    t.skeleton.Faithful ↔ ∀ v, t.Visits strict v → v.occurrence.value.Separated := by
  have hvisit : ∀ v, t.Visits strict v → (v.occurrence.value.skeleton.Faithful ↔
      ∀ w, v.Leads w → w.occurrence.value.Separated) := by
    intro v hv
    induction hn : sizeOf v.occurrence.value using Nat.strongRecOn generalizing v with
    | ind n ih =>
      subst hn
      rw [faithful_skeleton_step, ← hv.map_value_next, List.forall_mem_map]
      constructor
      · rintro ⟨hown, hnext⟩ w hw
        rcases hw.cases_head with rfl | ⟨u, hu, hw⟩
        · exact hown
        · exact (ih _ (Visit.sizeOf_lt_of_mem_next hu) u (hv.tail hu) rfl).1 (hnext u hu) w hw
      · intro h
        refine ⟨h v .refl, fun u hu => ?_⟩
        exact (ih _ (Visit.sizeOf_lt_of_mem_next hu) u (hv.tail hu) rfl).2
          fun w hw => h w (.head hu hw)
  exact hvisit (.root strict t) .refl

end Tree

end ScriptTree
