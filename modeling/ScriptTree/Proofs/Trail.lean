/-
  Trails of visits, and what is charged at a trail.

  * `Apart`: trails with no place below both; the visits that a rule asks for are apart
    (`pairwise_next`), and none of them lies at or above a value that the rule itself
    charges (`not_suffix_owner`).
  * `Visit.Leads.suffix`, `Tree.Visits.at?`: a visit lies below the one it comes from, and
    its trail leads to its value.
  * `chargedAt`: the faults charged at a trail, in order.  `chargedAt_of_visits`,
    `chargedAt_of_attached`: at a visited node, and at a value that is checked along with it,
    these are the faults that the rule of the node reports there.
-/
import ScriptTree.Proofs.Owner

namespace ScriptTree

/-- Two trails with no place below both. -/
def Apart (a b : List Selector) : Prop := ∀ trail, a <:+ trail → ¬ b <:+ trail

theorem Apart.symm {a b : List Selector} (h : Apart a b) : Apart b a :=
  fun trail hb ha => h trail ha hb

theorem Apart.of_suffix {a b a' b' : List Selector} (h : Apart a b) (ha : a <:+ a')
    (hb : b <:+ b') : Apart a' b' :=
  fun trail ha' hb' => h trail (ha.trans ha') (hb.trans hb')

/-- Two steps from one place are apart if they differ. -/
theorem apart_cons {a b : Selector} {trail : List Selector} (h : a ≠ b) :
    Apart (a :: trail) (b :: trail) := by
  intro below ha hb
  have hsuffix := List.suffix_of_suffix_length_le ha hb (by simp)
  have heq := hsuffix.eq_of_length (by simp)
  exact h (List.cons.inj heq).1

theorem not_cons_suffix (a : Selector) (trail : List Selector) : ¬ a :: trail <:+ trail := by
  intro h
  have := h.length_le
  simp only [List.length_cons] at this
  omega

/-! ## The trails of a slot -/

theorem Tree.mem_indexed_iff {t value : Tree} {name : String} {index : Nat} :
    (value, index) ∈ t.indexed name ↔ ∃ list elements, t.child? name = some list ∧
      list.elements? = some elements ∧ elements[index]? = some value := by
  rw [indexed, List.mk_mem_zipIdx_iff_getElem?]
  constructor
  · intro h
    cases hlist : t.child? name with
    | none => simp [hlist] at h
    | some list =>
      cases helements : list.elements? with
      | none => simp [hlist, helements] at h
      | some elements => exact ⟨list, elements, rfl, helements, by simpa [hlist, helements] using h⟩
  · rintro ⟨list, elements, hlist, helements, h⟩
    simpa [hlist, helements] using h

namespace Slot

/-- How a slot of a node holds an occurrence. -/
inductive Holds (s : Slot) (o : Occurrence) : Occurrence → Prop
  | child {c} : s.shape = .one ∨ s.shape = .maybe → o.child? s.field = some c → Holds s o c
  | element {value index} : s.shape = .list ∨ s.shape = .sparse → value ≠ .null →
      (value, index) ∈ o.value.indexed s.field → Holds s o (o.element s.field index value)
  | value {value index c} : s.shape = .values → (value, index) ∈ o.value.indexed s.field →
      (o.element s.field index value).child? "value" = some c → Holds s o c

variable {s : Slot} {o c : Occurrence}

theorem occupant?_eq_some_iff {field : String} {value : Tree} {index : Nat} :
    occupant? o field (value, index) = some c ↔
      value ≠ .null ∧ c = o.element field index value := by
  cases value <;> simp [occupant?, eq_comm]

theorem Holds.child?_eq (h : s.Holds o c) (hshape : s.shape = .one ∨ s.shape = .maybe) :
    o.child? s.field = some c := by
  rcases h with ⟨-, hc⟩ | ⟨h, -, -⟩ | ⟨h, -, -⟩
  · exact hc
  · rcases h with h | h <;> rcases hshape with h' | h' <;> cases h.symm.trans h'
  · rcases hshape with h' | h' <;> cases h.symm.trans h'

theorem Holds.exists_index (h : s.Holds o c) (hshape : s.shape = .list) :
    ∃ index, c.trail = .element index :: .field s.field :: o.trail := by
  rcases h with ⟨h, -⟩ | ⟨-, -, -⟩ | ⟨h, -, -⟩
  · rcases h with h | h <;> cases h.symm.trans hshape
  · exact ⟨_, rfl⟩
  · cases h.symm.trans hshape

theorem mem_occupants_iff : c ∈ s.occupants o ↔ s.Holds o c := by
  have hlist : (s.shape = .list ∨ s.shape = .sparse) →
      (c ∈ (o.value.indexed s.field).filterMap (occupant? o s.field) ↔ s.Holds o c) := by
    intro hshape
    rw [List.mem_filterMap]
    constructor
    · rintro ⟨⟨value, index⟩, hmem, h⟩
      obtain ⟨hnull, rfl⟩ := occupant?_eq_some_iff.1 h
      exact .element hshape hnull hmem
    · rintro (⟨h, -⟩ | ⟨-, hnull, hmem⟩ | ⟨h, -, -⟩)
      · rcases h with h | h <;> rcases hshape with h' | h' <;> cases h.symm.trans h'
      · exact ⟨_, hmem, occupant?_eq_some_iff.2 ⟨hnull, rfl⟩⟩
      · rcases hshape with h' | h' <;> cases h.symm.trans h'
  have hchild : (s.shape = .one ∨ s.shape = .maybe) →
      (c ∈ (o.child? s.field).toList ↔ s.Holds o c) := by
    intro hshape
    rw [Option.mem_toList]
    constructor
    · exact .child hshape
    · exact fun h => h.child?_eq hshape
  unfold occupants
  split
  · next h => exact hchild (Or.inl h)
  · next h => exact hchild (Or.inr h)
  · next h => exact hlist (Or.inl h)
  · next h => exact hlist (Or.inr h)
  · next hshape =>
    rw [List.mem_filterMap]
    constructor
    · rintro ⟨⟨value, index⟩, hmem, h⟩
      exact .value hshape hmem h
    · rintro (⟨h, -⟩ | ⟨h, -, -⟩ | ⟨-, hmem, h⟩)
      · rcases h with h | h <;> cases h.symm.trans hshape
      · rcases h with h | h <;> cases h.symm.trans hshape
      · exact ⟨_, hmem, h⟩

theorem Holds.suffix (h : s.Holds o c) : .field s.field :: o.trail <:+ c.trail := by
  rcases h with ⟨-, hc⟩ | ⟨-, -, -⟩ | ⟨-, -, hc⟩
  · exact (Occurrence.child?_eq_some_iff.1 hc).2 ▸ List.suffix_rfl
  · exact List.suffix_cons _ _
  · rw [(Occurrence.child?_eq_some_iff.1 hc).2]
    exact (List.suffix_cons _ _).trans (List.suffix_cons _ _)

/-- The trail of what a slot holds leads to it. -/
theorem Holds.at? {t : Tree} (ho : t.at? o.trail = some o.value) (h : s.Holds o c) :
    t.at? c.trail = some c.value := by
  have helement : ∀ {value index}, (value, index) ∈ o.value.indexed s.field →
      t.at? (o.element s.field index value).trail = some value := by
    intro value index hmem
    obtain ⟨list, elements, hlist, helements, hvalue⟩ := Tree.mem_indexed_iff.1 hmem
    exact Occurrence.at?_of_element ho hlist helements hvalue
  rcases h with ⟨-, hc⟩ | ⟨-, -, hmem⟩ | ⟨-, hmem, hc⟩
  · exact Occurrence.at?_of_child? ho hc
  · exact helement hmem
  · exact Occurrence.at?_of_child? (o := o.element s.field _ _) (helement hmem) hc

theorem pairwise_indexed (t : Tree) (name : String) :
    (t.indexed name).Pairwise fun p q => p.2 ≠ q.2 := by
  have hnodup : ((t.indexed name).map Prod.snd).Nodup := by
    rw [Tree.indexed, List.zipIdx_map_snd]
    exact List.nodup_range'
  exact List.pairwise_map.1 hnodup

/-- What a slot holds is apart. -/
theorem pairwise_occupants (s : Slot) (o : Occurrence) :
    (s.occupants o).Pairwise fun c d => Apart c.trail d.trail := by
  have helement : ∀ {f : Tree × Nat → Option Occurrence},
      (∀ p c, f p = some c → .element p.2 :: .field s.field :: o.trail <:+ c.trail) →
      ((o.value.indexed s.field).filterMap f).Pairwise fun c d => Apart c.trail d.trail := by
    intro f hf
    refine (pairwise_indexed o.value s.field).filterMap f ?_
    intro p q hne c hc d hd
    have hapart : Apart (.element p.2 :: .field s.field :: o.trail)
        (.element q.2 :: .field s.field :: o.trail) := apart_cons (by simpa using hne)
    exact hapart.of_suffix (hf p c hc) (hf q d hd)
  have hchild : (o.child? s.field).toList.Pairwise fun c d => Apart c.trail d.trail := by
    cases o.child? s.field <;> simp
  have hlist := helement (f := occupant? o s.field) fun (value, index) c hc => by
    rw [(occupant?_eq_some_iff.1 hc).2]
    exact List.suffix_rfl
  unfold occupants
  split
  · exact hchild
  · exact hchild
  · exact hlist
  · exact hlist
  · refine helement fun (value, index) c hc => ?_
    rw [(Occurrence.child?_eq_some_iff.1 hc).2]
    exact List.suffix_cons _ _

end Slot

namespace Rule.Attached

variable {o p : Occurrence} {kind : Kind}

theorem suffix (h : Attached o kind p) : o.trail <:+ p.trail := by
  cases h with
  | property _ => exact (List.suffix_cons _ _).trans (List.suffix_cons _ _)
  | key _ hc =>
    rw [(Occurrence.child?_eq_some_iff.1 hc).2]
    exact ((List.suffix_cons _ _).trans (List.suffix_cons _ _)).trans (List.suffix_cons _ _)
  | memberName _ hc =>
    rw [(Occurrence.child?_eq_some_iff.1 hc).2]
    exact List.suffix_cons _ _

/-- What a slot holds is not above a value attached to the node, and not the same. -/
theorem not_suffix {s : Slot} {c : Occurrence} (h : Attached o kind p)
    (hs : s ∈ Grammar.slotsOfKind o.value kind) (hholds : s.Holds o c) :
    ¬ c.trail <:+ p.trail := by
  -- the values of properties lie below the properties, and beside their keys
  have hvalue : kind = .objectExpression → ∃ index, c.trail =
      .field "value" :: .element index :: .field "properties" :: o.trail := by
    rintro rfl
    obtain rfl := List.mem_singleton.1 hs
    rcases hholds with ⟨h, -⟩ | ⟨h, -, -⟩ | ⟨-, -, hc⟩
    · rcases h with h | h <;> cases h
    · rcases h with h | h <;> cases h
    · exact ⟨_, (Occurrence.child?_eq_some_iff.1 hc).2⟩
  cases h with
  | property _ =>
    obtain ⟨index, htrail⟩ := hvalue rfl
    rw [htrail]
    intro h
    have := h.length_le
    simp only [Occurrence.element, List.length_cons] at this
    omega
  | key _ hkey =>
    obtain ⟨index, htrail⟩ := hvalue rfl
    rw [htrail, (Occurrence.child?_eq_some_iff.1 hkey).2]
    intro h
    have := h.eq_of_length (by simp [Occurrence.element])
    simp at this
  | memberName hcomputed hproperty =>
    simp only [Grammar.slotsOfKind, hcomputed] at hs
    obtain rfl := List.mem_singleton.1 hs
    rw [(Occurrence.child?_eq_some_iff.1 hproperty).2]
    exact fun h => apart_cons (by simp [Slot.one]) _ (hholds.suffix.trans h) List.suffix_rfl

end Rule.Attached

/-- The slots of a node are different fields. -/
theorem Grammar.pairwise_slots (role : Role) (t : Tree) (kind : Kind) :
    (Grammar.slots role t kind).Pairwise fun s s' => s.field ≠ s'.field := by
  cases role with
  | functionBody => exact List.pairwise_singleton ..
  | node =>
    cases kind with
    | functionExpression | functionDeclaration =>
      simp [slots, slotsOfKind, functionSlots, Slot.one, Slot.maybe, Slot.list, Slot.behind,
        bodySlot_field]
    | memberExpression =>
      simp only [slots, slotsOfKind]
      split <;> simp [Slot.one]
    | tryStatement =>
      simp only [slots, slotsOfKind, catchSlot]
      split <;> simp [Slot.one, Slot.maybe, Slot.list]
    | _ => simp [slots, slotsOfKind, loopSlot, Slot.one, Slot.maybe, Slot.list, Slot.behind]

/-! ## The trails of visits -/

namespace Visit

variable {v w : Visit}

/-- The steps from the root to a visit, the last one first. -/
def trail (v : Visit) : List Selector := v.occurrence.trail

theorem pairwise_slots (v : Visit) : v.slots.Pairwise fun s s' => s.field ≠ s'.field := by
  unfold slots
  split
  · exact List.Pairwise.nil
  · exact Grammar.pairwise_slots ..

theorem exists_slot_of_mem_next (h : w ∈ v.next) :
    ∃ s ∈ v.slots, s.Holds v.occurrence w.occurrence ∧ w.role = s.role ∧
      w.scope = s.scope v.scope := by
  obtain ⟨s, hs, c, hc, rfl⟩ := mem_next_iff.1 h
  exact ⟨s, hs, Slot.mem_occupants_iff.1 hc, rfl, rfl⟩

theorem suffix_of_mem_next (h : w ∈ v.next) :
    ∃ s ∈ v.slots, .field s.field :: v.trail <:+ w.trail := by
  obtain ⟨s, hs, hholds, -⟩ := exists_slot_of_mem_next h
  exact ⟨s, hs, hholds.suffix⟩

/-- The visits that a rule asks for are apart. -/
theorem pairwise_next (v : Visit) : v.next.Pairwise fun a b => Apart a.trail b.trail := by
  rw [next_eq, List.pairwise_flatMap]
  constructor
  · intro s _
    exact List.pairwise_map.2 (s.pairwise_occupants v.occurrence)
  · refine v.pairwise_slots.imp fun hne a ha b hb => ?_
    obtain ⟨c, hc, rfl⟩ := List.mem_map.1 ha
    obtain ⟨d, hd, rfl⟩ := List.mem_map.1 hb
    have hfields : Selector.field _ ≠ .field _ := fun h => hne (Selector.field.inj h)
    exact (apart_cons hfields).of_suffix
      (Slot.mem_occupants_iff.1 hc).suffix (Slot.mem_occupants_iff.1 hd).suffix

theorem Leads.suffix (h : v.Leads w) : v.trail <:+ w.trail := by
  induction h with
  | refl => exact List.suffix_rfl
  | tail _ hnext ih =>
    obtain ⟨s, -, hs⟩ := suffix_of_mem_next hnext
    exact ih.trans ((List.suffix_cons _ _).trans hs)

/-- A value that is charged at a visit lies at it or below it. -/
theorem suffix_owner {x : Violation} (h : x ∈ v.own) : v.trail <:+ x.owner.trail := by
  rcases owner_of_mem_own h with howner | ⟨-, kind, -, hattached⟩
  · rw [howner]
    exact List.suffix_rfl
  · exact hattached.suffix

/-- A value that is charged at a visit does not lie at or below one of the next visits. -/
theorem not_suffix_owner {x : Violation} (hx : x ∈ v.own) (hw : w ∈ v.next) :
    ¬ w.trail <:+ x.owner.trail := by
  obtain ⟨s, hs, hholds, -⟩ := exists_slot_of_mem_next hw
  rcases owner_of_mem_own hx with howner | ⟨hrole, kind, hkind, hattached⟩
  · rw [howner]
    exact fun h => not_cons_suffix _ _ (hholds.suffix.trans h)
  · have hslots : v.slots = Grammar.slotsOfKind v.occurrence.value kind := by
      rw [slots, hkind, hrole]; rfl
    exact hattached.not_suffix (hslots ▸ hs) hholds

end Visit

theorem Tree.Visits.at? {strict : Bool} {t : Tree} {v : Visit} (h : t.Visits strict v) :
    t.at? v.trail = some v.occurrence.value := by
  induction h with
  | refl => rfl
  | tail _ hnext ih =>
    obtain ⟨s, -, hholds, -⟩ := Visit.exists_slot_of_mem_next hnext
    exact hholds.at? ih

/-- The trail of what is attached to a node leads to it. -/
theorem Rule.Attached.at? {t : Tree} {o p : Occurrence} {kind : Kind}
    (ho : t.at? o.trail = some o.value) (h : Attached o kind p) :
    t.at? p.trail = some p.value := by
  have helement : ∀ {value index}, (value, index) ∈ o.value.indexed "properties" →
      t.at? (o.element "properties" index value).trail = some value := by
    intro value index hmem
    obtain ⟨list, elements, hlist, helements, hvalue⟩ := Tree.mem_indexed_iff.1 hmem
    exact Occurrence.at?_of_element ho hlist helements hvalue
  cases h with
  | property hmem => exact helement hmem
  | key hmem hkey => exact Occurrence.at?_of_child? (helement hmem) hkey
  | memberName _ hproperty => exact Occurrence.at?_of_child? ho hproperty

/-- **A violation is at a place of the tree.** -/
theorem Tree.at?_owner {strict : Bool} {t : Tree} {w : Violation} (h : w ∈ t.violations strict) :
    t.at? w.owner.trail = some w.owner.value := by
  obtain ⟨v, hv, hown⟩ := Tree.mem_violations_iff.1 h
  rcases Visit.owner_of_mem_own hown with howner | ⟨-, kind, -, hattached⟩
  · rw [howner]
    exact hv.at?
  · exact hattached.at? hv.at?

/-! ## What is charged at a trail -/

/-- The faults that some violations charge at a trail, in order. -/
def chargedAt (trail : List Selector) (vs : List Violation) : List Fault :=
  vs.filterMap fun x => if x.owner.trail = trail then some x.fault else none

theorem chargedAt_append (trail : List Selector) (a b : List Violation) :
    chargedAt trail (a ++ b) = chargedAt trail a ++ chargedAt trail b :=
  List.filterMap_append

theorem chargedAt_eq_nil_iff {trail : List Selector} {vs : List Violation} :
    chargedAt trail vs = [] ↔ ∀ x ∈ vs, x.owner.trail ≠ trail := by
  simp [chargedAt, List.filterMap_eq_nil_iff]

/-- The faults of some sort at a trail are those of the violations of that sort. -/
theorem filter_chargedAt (test : Fault → Bool) (trail : List Selector) (vs : List Violation) :
    (chargedAt trail vs).filter test = chargedAt trail (vs.filter fun w => test w.fault) := by
  rw [chargedAt, chargedAt, List.filter_filterMap, List.filterMap_filter]
  refine List.filterMap_congr fun w _ => ?_
  by_cases htrail : w.owner.trail = trail
  · rw [if_pos htrail, Option.filter_some]
  · rw [if_neg htrail, Option.filter_none, ite_self]

/-- If the steps themselves charge nothing at a trail, what they charge there is charged
    by the visits among them. -/
theorem chargedAt_steps {trail : List Selector} {steps : List Step}
    (h : chargedAt trail (Steps.reports steps) = []) :
    chargedAt trail (steps.flatMap Step.violations) =
      (Steps.visits steps).flatMap fun c => chargedAt trail c.violations := by
  induction steps with
  | nil => rfl
  | cons step rest ih =>
    rw [List.flatMap_cons, chargedAt_append]
    cases step with
    | report violation =>
      have happend : Steps.reports (.report violation :: rest) =
          [violation] ++ Steps.reports rest := rfl
      rw [happend, chargedAt_append, List.append_eq_nil_iff] at h
      rw [ih h.2]
      show chargedAt trail [violation] ++ _ = _
      rw [h.1]
      rfl
    | visit role scope c =>
      rw [ih h]
      rfl

/-- If the visits among some steps charge nothing at a trail, what is charged there is
    charged by the steps themselves. -/
theorem chargedAt_reports {trail : List Selector} {steps : List Step}
    (h : ∀ c ∈ Steps.visits steps, chargedAt trail c.violations = []) :
    chargedAt trail (steps.flatMap Step.violations) = chargedAt trail (Steps.reports steps) := by
  induction steps with
  | nil => rfl
  | cons step rest ih =>
    rw [List.flatMap_cons, chargedAt_append]
    cases step with
    | report violation =>
      rw [ih h]
      exact (chargedAt_append trail [violation] _).symm
    | visit role scope c =>
      rw [ih fun c hc => h c (List.mem_cons_of_mem _ hc)]
      show chargedAt trail (Visit.violations ⟨role, scope, c⟩) ++ _ = _
      rw [h _ List.mem_cons_self]
      rfl

theorem flatMap_eq_of_pairwise {α β : Type} {R : α → α → Prop} {l : List α} {f : α → List β}
    {b : α} (hl : l.Pairwise R) (hb : b ∈ l) (hf : ∀ c, R b c ∨ R c b → f c = []) :
    l.flatMap f = f b := by
  induction l with
  | nil => cases hb
  | cons a l ih =>
    rw [List.pairwise_cons] at hl
    rw [List.flatMap_cons]
    rcases List.mem_cons.1 hb with rfl | hb
    · have hrest : l.flatMap f = [] :=
        List.flatMap_eq_nil_iff.2 fun c hc => hf c (Or.inl (hl.1 c hc))
      rw [hrest, List.append_nil]
    · rw [ih hl.2 hb, hf a (Or.inr (hl.1 b hb)), List.nil_append]

namespace Visit

variable {v w : Visit}

/-- Everything charged by a visit is charged at it or below it. -/
theorem suffix_of_mem_violations {x : Violation} (h : x ∈ v.violations) :
    v.trail <:+ x.owner.trail := by
  obtain ⟨u, hu, hx⟩ := mem_violations_iff.1 h
  exact hu.suffix.trans (suffix_owner hx)

/-- Nothing is charged at a trail by a visit that is not above it. -/
theorem chargedAt_eq_nil {trail : List Selector} (h : ¬ v.trail <:+ trail) :
    chargedAt trail v.violations = [] :=
  chargedAt_eq_nil_iff.2 fun _ hx heq => h (heq ▸ suffix_of_mem_violations hx)

/-- What is charged at a trail that is in none of the next visits is charged by the rule of the
    visit itself. -/
theorem chargedAt_of_not_next {trail : List Selector}
    (hnext : ∀ c ∈ v.next, ¬ c.trail <:+ trail) :
    chargedAt trail v.violations = chargedAt trail v.own := by
  cases hkind : v.occurrence.value.nodeKind with
  | error fault => rw [violations_of_error hkind, own, hkind]
  | ok kind =>
    have hsome := Tree.nodeKind_eq_ok_iff.1 hkind
    rw [violations_of_kind hsome, own_of_kind hsome]
    exact chargedAt_reports fun c hc => chargedAt_eq_nil (hnext c hc)

/-- Below one of the next visits only that visit charges anything. -/
theorem chargedAt_of_next {trail : List Selector} {kind : Kind} {c : Visit}
    (hkind : v.occurrence.value.kind? = some kind) (hc : c ∈ v.next) (hsuffix : c.trail <:+ trail) :
    chargedAt trail v.violations = chargedAt trail c.violations := by
  have hown : chargedAt trail (Steps.reports v.steps) = [] := by
    rw [← own_of_kind hkind, chargedAt_eq_nil_iff]
    exact fun x hx heq => not_suffix_owner hx hc (heq ▸ hsuffix)
  rw [violations_of_kind hkind, chargedAt_steps hown]
  refine flatMap_eq_of_pairwise v.pairwise_next hc fun d hd => chargedAt_eq_nil ?_
  rcases hd with hd | hd
  · exact hd _ hsuffix
  · exact hd.symm _ hsuffix

/-- **At a trail below a visit, but in none of the next ones, only the rule of the visit charges
    anything.** -/
theorem chargedAt_of_leads {trail : List Selector} (h : v.Leads w) (hsuffix : w.trail <:+ trail)
    (hnext : ∀ c ∈ w.next, ¬ c.trail <:+ trail) :
    chargedAt trail v.violations = chargedAt trail w.own := by
  induction h using Relation.ReflTransGen.head_induction_on with
  | refl => exact chargedAt_of_not_next hnext
  | @head v c hc hw ih =>
    have hbelow : c.trail <:+ trail := (Leads.suffix hw).trans hsuffix
    cases hkind : v.occurrence.value.kind? with
    | none => simp [next, steps, hkind] at hc
    | some kind => rw [chargedAt_of_next hkind hc hbelow, ih]

/-- **At any trail only the rule of one visit charges anything.** -/
theorem exists_chargedAt (v : Visit) (trail : List Selector) :
    ∃ w, v.Leads w ∧ chargedAt trail v.violations = chargedAt trail w.own := by
  induction hn : sizeOf v.occurrence.value using Nat.strongRecOn generalizing v with
  | ind n ih =>
    subst hn
    cases hnode : v.occurrence.value.nodeKind with
    | error fault => exact ⟨v, .refl, by rw [violations_of_error hnode, own, hnode]⟩
    | ok kind =>
      have hkind := Tree.nodeKind_eq_ok_iff.1 hnode
      by_cases hbelow : ∃ c ∈ v.next, c.trail <:+ trail
      · obtain ⟨c, hc, hsuffix⟩ := hbelow
        obtain ⟨w, hw, heq⟩ := ih _ (sizeOf_lt_of_mem_next hc) c rfl
        refine ⟨w, .head hc hw, ?_⟩
        rw [chargedAt_of_next hkind hc hsuffix, heq]
      · exact ⟨v, .refl, chargedAt_of_not_next fun c hc h => hbelow ⟨c, hc, h⟩⟩

end Visit

/-- The faults that the traversal of a tree charges at a trail, in order. -/
def Tree.chargedAt (strict : Bool) (t : Tree) (trail : List Selector) : List Fault :=
  ScriptTree.chargedAt trail (t.violations strict)

/-- At the trail of a visit only its own rule charges anything. -/
theorem Tree.chargedAt_of_visits {strict : Bool} {t : Tree} {v : Visit}
    (h : t.Visits strict v) : t.chargedAt strict v.trail = ScriptTree.chargedAt v.trail v.own := by
  refine Visit.chargedAt_of_leads h List.suffix_rfl fun c hc hsuffix => ?_
  obtain ⟨s, -, hs⟩ := Visit.suffix_of_mem_next hc
  exact not_cons_suffix _ _ (hs.trans hsuffix)

/-- At a value that is checked along with a visit, only the rule of the visit charges anything. -/
theorem Tree.chargedAt_of_attached {strict : Bool} {t : Tree} {v : Visit} {p : Occurrence}
    (h : t.Visits strict v) (hp : v.Attached p) :
    t.chargedAt strict p.trail = ScriptTree.chargedAt p.trail v.own := by
  obtain ⟨hrole, kind, hkind, hattached⟩ := hp
  refine Visit.chargedAt_of_leads h hattached.suffix fun c hc => ?_
  obtain ⟨s, hs, hholds, -⟩ := Visit.exists_slot_of_mem_next hc
  rw [Visit.slots, hkind, hrole] at hs
  exact hattached.not_suffix hs hholds

end ScriptTree
