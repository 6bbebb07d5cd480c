/-
  The places and the steps of a traversal before and after mild changes.

  * `Finding`: what a violation says, and where; `Finding.after`: what it says after the
    changes, which is the same but for catch clauses that are put in a list.
  * `Paired`: a value and what it is after the changes, at their places in the two trees;
    `Kept`: a field of it that is read as before.
  * `Steps.Alike`: steps that report and visit the same, one by one.  Every combinator takes
    such steps (`alike_required` and so on).
-/
import ScriptTree.Proofs.Lookahead
import ScriptTree.Proofs.Relocation

namespace ScriptTree

/-! ## Findings -/

/-- What a violation says, and where. -/
structure Finding where
  /-- The place of the owner. -/
  trail : List Selector
  /-- The word for the owner in a message. -/
  word : String
  fault : Fault
  position : Option Position
  deriving DecidableEq, Repr

/-- What a violation says, and where. -/
def Violation.finding (w : Violation) : Finding where
  trail := w.owner.trail
  word := w.owner.value.describe
  fault := w.fault
  position := w.owner.value.position?

/-- The text of a finding. -/
def Finding.message (f : Finding) : String := f.word ++ ": " ++ f.fault.message

/-- The fault of a single catch clause, as that of the first one in a list. -/
def Fault.listed : Fault → Fault
  | misplaced field expected found =>
    misplaced (if field = .named "handler" then .element "handlers" 0 else field) expected found
  | fault => fault

namespace Tree

/-- Whether a try statement has a list of catch clauses only after the changes. -/
def lists (t t' : Tree) : Bool :=
  t.kind? == some .tryStatement && (t.child? "handlers").isNone && (t'.child? "handlers").isSome

theorem ClauseListed.child?_list {t t' c c' : Tree} (h : t.ClauseListed t' c c') :
    t'.child? "handlers" = some (.array [c']) :=
  child?_eq_some_iff.2 ⟨h.list_eq, by rintro ⟨⟩⟩

theorem ClauseListed.lists {t t' c c' : Tree} (h : t.ClauseListed t' c c') :
    t.lists t' = true := by
  simp [Tree.lists, h.kind_eq, h.no_list, h.child?_list]

/-- The place of a value after catch clauses have been put in lists. -/
def listedTrail (t t' : Tree) : List Selector → List Selector
  | [] => []
  | selector :: above =>
    let above' := listedTrail t t' above
    if selector = .field "handler" ∧ ((t.at? above).any fun s => (t'.at? above').any s.lists) then
      .element 0 :: .field "handlers" :: above'
    else selector :: above'

/-- Whether the value at a place is a try statement that has a list of catch clauses only after
    the changes. -/
def listsAt (t t' : Tree) (trail : List Selector) : Bool :=
  (t.at? trail).any fun s => (t'.at? (t.listedTrail t' trail)).any s.lists

end Tree

/-- A finding after catch clauses have been put in lists. -/
def Finding.listed (t t' : Tree) (f : Finding) : Finding where
  trail := t.listedTrail t' f.trail
  word := f.word
  fault := if t.listsAt t' f.trail then f.fault.listed else f.fault
  position := f.position

/-- A finding after changes, which move nothing but catch clauses. -/
def Finding.after (e : Edits) (t t' : Tree) (f : Finding) : Finding :=
  if e.listsClauses then f.listed t t' else f

/-- A fault that is not that of a single catch clause. -/
def Fault.Stays (f : Fault) : Prop := f.listed = f

theorem Fault.stays_misplaced {field : Field} (h : field ≠ .named "handler") (expected : Category)
    (found : Kind) : (misplaced field expected found).Stays := by
  rw [Stays, listed, if_neg h]

theorem Fault.stays_of_not_mayCharge {f : Fault} {kind : Kind} (h : f.mayCharge kind = false) :
    f.Stays := by
  cases f with
  | misplaced => cases h
  | _ => rfl

theorem Fault.stays_of_isLocation {f : Fault} (h : f.isLocation = true) : f.Stays := by
  cases f with
  | misplaced => cases h
  | _ => rfl

/-! ## Places -/

open Grammar

/-- A value of a tree and what it is after the changes, at their places. -/
structure Paired (e : Edits) (t t' : Tree) (p : Place) (o o' : Occurrence) : Prop where
  at?_eq : t.at? o.trail = some o.value
  at?_eq' : t'.at? o'.trail = some o'.value
  trail_eq : o'.trail = if e.listsClauses then t.listedTrail t' o.trail else o.trail
  edited : o.value.Edited e p o'.value
  /-- Nothing else has a place that a violation is charged to. -/
  place : p = .node ∨ p = .property

/-- A field of a value is read before and after the changes, and what it holds stays there. -/
structure Kept (e : Edits) (o o' : Occurrence) (name : String) (q : Place) : Prop where
  rel : Option.Rel (Tree.Edited e q) (o.value.child? name) (o'.value.child? name)
  stays : name ≠ "handler" ∨ o.value.lists o'.value = false

namespace Paired

variable {e : Edits} {t t' : Tree} {p : Place} {o o' : Occurrence} {kind : Kind} {name : String}

theorem root (h : t.Edited e .node t') : Paired e t t' .node (.root t) (.root t') where
  at?_eq := rfl
  at?_eq' := rfl
  trail_eq := by cases e.listsClauses <;> rfl
  edited := h
  place := Or.inl rfl

theorem reads_type (h : Paired e t t' p o o') : steady? (p.reads o.value) "type" = some .plain := by
  rcases h.place with rfl | rfl <;> rfl

theorem reads_loc (h : Paired e t t' p o o') :
    steady? (p.reads o.value) "loc" = some .location := by
  rcases h.place with rfl | rfl <;> rfl

theorem listsAt_eq (h : Paired e t t' p o o') (hlists : e.listsClauses = true) :
    t.listsAt t' o.trail = o.value.lists o'.value := by
  have htrail := h.trail_eq
  rw [hlists, if_pos rfl] at htrail
  rw [Tree.listsAt, h.at?_eq, ← htrail, h.at?_eq', Option.any_some, Option.any_some]

/-- What is below a value stays there, but for the catch clause that is put in a list. -/
theorem trail_field (h : Paired e t t' p o o')
    (hname : name ≠ "handler" ∨ o.value.lists o'.value = false) :
    .field name :: o'.trail =
      if e.listsClauses then t.listedTrail t' (.field name :: o.trail)
      else .field name :: o.trail := by
  have htrail := h.trail_eq
  split
  · next hlists =>
    have hat := h.listsAt_eq hlists
    rw [if_pos hlists] at htrail
    rw [Tree.listsAt] at hat
    rw [Tree.listedTrail, if_neg, htrail]
    -- a step is replaced only if it leads to a single catch clause, and it is put in a list
    rintro ⟨hfield, hlisted⟩
    rcases hname with hne | hnot
    · exact hne (Selector.field.inj hfield)
    · rw [hat, hnot] at hlisted
      cases hlisted
  · next hlists => rw [htrail, if_neg hlists]

theorem trail_element (h : Paired e t t' p o o')
    (hname : name ≠ "handler" ∨ o.value.lists o'.value = false) (index : Nat) :
    .element index :: .field name :: o'.trail =
      if e.listsClauses then t.listedTrail t' (.element index :: .field name :: o.trail)
      else .element index :: .field name :: o.trail := by
  rw [h.trail_field hname]
  cases e.listsClauses <;> simp [Tree.listedTrail]

/-- A child that is kept corresponds at its place. -/
theorem child (h : Paired e t t' p o o') (hkept : Kept e o o' name .node) :
    Option.Rel (Paired e t t' .node) (o.child? name) (o'.child? name) := by
  rcases eq_none_or_of_rel hkept.rel with ⟨hnone, hnone'⟩ | ⟨c, c', hc, hc', hedited⟩
  · rw [Occurrence.child?_eq_none_iff.2 hnone, Occurrence.child?_eq_none_iff.2 hnone']
    exact .none
  · have hchild : o.child? name = some ⟨.field name :: o.trail, c⟩ :=
      Occurrence.child?_eq_some_iff.2 ⟨hc, rfl⟩
    have hchild' : o'.child? name = some ⟨.field name :: o'.trail, c'⟩ :=
      Occurrence.child?_eq_some_iff.2 ⟨hc', rfl⟩
    rw [hchild, hchild']
    exact .some ⟨Occurrence.at?_of_child? h.at?_eq hchild,
      Occurrence.at?_of_child? h.at?_eq' hchild', h.trail_field hkept.stays, hedited, Or.inl rfl⟩

/-- The elements of a list that is kept correspond at their places. -/
theorem elements (h : Paired e t t' p o o') {q : Place} (hkept : Kept e o o' name q)
    (hplace : q.element = .node ∨ q.element = .property) {values values' : List Tree}
    (hvalues : o.value.child? name >>= Tree.elements? = some values)
    (hvalues' : o'.value.child? name >>= Tree.elements? = some values')
    (hedited : List.Forall₂ (Tree.Edited e q.element) values values') :
    List.Forall₂ (fun v v' => v.2 = v'.2 ∧
        Paired e t t' q.element (o.element name v.2 v.1) (o'.element name v'.2 v'.1))
      values.zipIdx values'.zipIdx := by
  obtain ⟨hlength, hget⟩ := List.forall₂_iff_get.1 hedited
  obtain ⟨list, hlist, hlist?⟩ := Option.bind_eq_some_iff.1 hvalues
  obtain ⟨list', hlist', hlist?'⟩ := Option.bind_eq_some_iff.1 hvalues'
  refine List.forall₂_iff_get.2 ⟨by simpa using hlength, fun i hi hi' => ?_⟩
  rw [List.length_zipIdx] at hi hi'
  have hvalue : values[i]? = some values[i] := List.getElem?_eq_getElem hi
  have hvalue' : values'[i]? = some values'[i] := List.getElem?_eq_getElem hi'
  simp only [List.get_eq_getElem, List.getElem_zipIdx, Nat.zero_add]
  exact ⟨trivial, Occurrence.at?_of_element h.at?_eq hlist hlist? hvalue,
    Occurrence.at?_of_element h.at?_eq' hlist' hlist?' hvalue', h.trail_element hkept.stays i,
    hget i hi hi', hplace⟩

/-- A catch clause that is put in a list is at its place there. -/
theorem listed (h : Paired e t t' p o o') {c c' : Tree} (hlists : e.listsClauses = true)
    (hlisted : o.value.ClauseListed o'.value c c') (hedited : c.Edited e .node c') :
    Paired e t t' .node ⟨.field "handler" :: o.trail, c⟩ (o'.element "handlers" 0 c') where
  at?_eq := Occurrence.at?_of_child? h.at?_eq
    (Occurrence.child?_eq_some_iff.2 ⟨hlisted.clause_eq, rfl⟩)
  at?_eq' := Occurrence.at?_of_element h.at?_eq' hlisted.child?_list rfl rfl
  trail_eq := by
    have htrail := h.trail_eq
    have hat := h.listsAt_eq hlists
    rw [if_pos hlists] at htrail
    rw [hlisted.lists, Tree.listsAt] at hat
    rw [if_pos hlists, Tree.listedTrail, if_pos ⟨rfl, hat⟩, ← htrail]
    rfl
  edited := hedited
  place := Or.inl rfl

section
variable (he : e.Mild)
include he

/-- What is reported of a value is reported after the changes, the fault of a single catch clause
    that is put in a list as that of the first one there. -/
theorem finding_after (h : Paired e t t' p o o') {f f' : Fault}
    (hf : f' = if e.listsClauses && o.value.lists o'.value then f.listed else f) :
    (⟨o', f'⟩ : Violation).finding = (⟨o, f⟩ : Violation).finding.after e t t' := by
  have hword := h.edited.describe_eq he h.reads_type
  have hposition := h.edited.position?_eq he h.reads_loc
  have htrail := h.trail_eq
  unfold Finding.after
  split
  · next hlists =>
    rw [if_pos hlists] at htrail
    rw [hlists, Bool.true_and, ← h.listsAt_eq hlists] at hf
    simp only [Finding.listed, Violation.finding, htrail, hword, hposition, hf]
  · next hlists =>
    rw [if_neg hlists] at htrail
    rw [Bool.eq_false_iff.2 hlists] at hf
    simp only [Violation.finding, htrail, hword, hposition, hf, Bool.false_and,
      Bool.false_eq_true, if_false]

theorem finding_eq (h : Paired e t t' p o o') {f : Fault}
    (hf : f.Stays ∨ o.value.lists o'.value = false) :
    (⟨o', f⟩ : Violation).finding = (⟨o, f⟩ : Violation).finding.after e t t' := by
  refine h.finding_after he ?_
  rcases hf with hstays | hnot
  · rw [hstays, ite_self]
  · rw [hnot, Bool.and_false]
    rfl

theorem finding_listed (h : Paired e t t' p o o') (hlists : e.listsClauses = true)
    (hlisted : o.value.lists o'.value = true) (f : Fault) :
    (⟨o', f.listed⟩ : Violation).finding = (⟨o, f⟩ : Violation).finding.after e t t' :=
  h.finding_after he (by rw [hlists, hlisted]; rfl)

/-- A field that is read is kept. -/
theorem kept (h : Paired e t t' p o o') (name : String) {q : Place}
    (hread : steady? (p.reads o.value) name = some q) : Kept e o o' name q := by
  refine ⟨h.edited.child he name hread, Or.inl ?_⟩
  rintro rfl
  cases hread

/-- A field that the rule of a kind reads is kept. -/
theorem kept_of_kind (h : Paired e t t' .node o o') (hkind : o.value.kind? = some kind)
    (name : String) {q : Place}
    (hread : steady? (commonFields ++ fieldsOfKind o.value kind) name = some q) :
    Kept e o o' name q := h.kept he name (Tree.steady_of_kind hkind hread)

end

/-- After harmless changes, the properties of an object literal are kept. -/
theorem kept_properties (he : e.Harmless) (h : Paired e t t' .node o o')
    (hkind : o.value.kind? = some .objectExpression) : Kept e o o' "properties" .properties := by
  refine ⟨?_, Or.inl (by decide)⟩
  rcases h.edited.properties_rel hkind with hchanged | hrel
  · rcases he _ _ _ _ _ hchanged with hunread | ⟨hold, hnew, -⟩
    · rw [Place.reads, hkind] at hunread
      cases hunread
    · rw [Tree.child?_eq_none_of_blank hold, Tree.child?_eq_none_of_blank hnew]
      exact .none
  · exact hrel

end Paired

/-! ## Steps -/

/-- A step before and after the changes. -/
inductive Step.Alike (e : Edits) (t t' : Tree) : Step → Step → Prop
  | report {w w' : Violation} : w'.finding = w.finding.after e t t' →
      Alike e t t' (.report w) (.report w')
  | visit {role scope c c'} : Paired e t t' .node c c' →
      (role = .functionBody → c.value.kind? = some .blockStatement) →
      Alike e t t' (.visit role scope c) (.visit role scope c')

namespace Steps

/-- Steps before and after the changes, one by one. -/
def Alike (e : Edits) (t t' : Tree) (a b : List Step) : Prop :=
  List.Forall₂ (Step.Alike e t t') a b

variable {e : Edits} {t t' : Tree} {p : Place} {o o' : Occurrence} {name : String}
  {category : Category} {scope : Scope} {a b c d : List Step}

theorem Alike.append (h : Alike e t t' a b) (h' : Alike e t t' c d) :
    Alike e t t' (a ++ c) (b ++ d) := List.rel_append h h'

theorem Alike.flatMap {α β : Type} {R : α → β → Prop} {l : List α} {l' : List β}
    {f : α → List Step} {g : β → List Step} (h : List.Forall₂ R l l')
    (hfg : ∀ x y, R x y → Alike e t t' (f x) (g y)) :
    Alike e t t' (l.flatMap f) (l'.flatMap g) :=
  List.rel_flatMap h fun x y hxy => hfg x y hxy

section
variable (he : e.Mild) (h : Paired e t t' p o o')
include he h

theorem alike_fault {f : Fault} (hf : f.Stays) : Alike e t t' (fault o f) (fault o' f) :=
  .cons (.report (h.finding_eq he (Or.inl hf))) .nil

theorem alike_faultIf {test test' : Bool} (htest : test = test') {f : Fault} (hf : f.Stays) :
    Alike e t t' (faultIf test o f) (faultIf test' o' f) := by
  subst htest
  cases test with
  | true => exact alike_fault he h hf
  | false => exact .nil

theorem alike_faults {f f' : Option Fault} (hf : f = f') (hstays : ∀ g ∈ f, g.Stays) :
    Alike e t t' (f.toList.flatMap (fault o)) (f'.toList.flatMap (fault o')) := by
  subst hf
  cases f with
  | none => exact .nil
  | some g => exact (alike_fault he h (hstays g rfl)).append .nil

theorem alike_location : Alike e t t' (location o) (location o') := by
  have hstays : ∀ f ∈ locationFaults o.value, f.Stays := fun f hf =>
    Fault.stays_of_isLocation (isLocation_of_mem_locationFaults hf)
  unfold location
  rw [← h.edited.locationFaults_eq he h.reads_loc]
  revert hstays
  induction locationFaults o.value with
  | nil => exact fun _ => .nil
  | cons f rest ih =>
    intro hstays
    obtain ⟨hf, hrest⟩ := List.forall_mem_cons.1 hstays
    exact .cons (.report (h.finding_eq he (Or.inl hf))) (ih hrest)

/-! ### Fields -/

theorem alike_present {c c' : Occurrence} (hc : Paired e t t' .node c c') {field : Field}
    (hfield : field ≠ .named "handler" ∨ o.value.lists o'.value = false) :
    Alike e t t' (present o field category scope c) (present o' field category scope c') := by
  unfold present
  rw [← hc.edited.kind?_eq he hc.reads_type]
  refine .append ?_ (.cons (.visit hc fun hrole => by cases hrole) .nil)
  split
  · next found _ =>
    cases category.contains found with
    | true => exact .nil
    | false =>
      refine .cons (.report (h.finding_eq he ?_)) .nil
      exact hfield.imp_left fun hne => Fault.stays_misplaced hne _ _
  · exact .nil

theorem alike_child {c c' : Occurrence} (hc : Paired e t t' .node c c')
    (hkept : Kept e o o' name .node) :
    Alike e t t' (present o (.named name) category scope c)
      (present o' (.named name) category scope c') := by
  refine alike_present he h hc (hkept.stays.imp_left fun hne => ?_)
  rintro ⟨⟩
  exact hne rfl

theorem alike_required (hkept : Kept e o o' name .node) :
    Alike e t t' (required o name category scope) (required o' name category scope) := by
  unfold required
  rcases eq_none_or_of_rel (h.child hkept) with ⟨hnone, hnone'⟩ | ⟨c, c', hc, hc', hpaired⟩
  · rw [hnone, hnone']
    exact alike_fault he h rfl
  · rw [hc, hc']
    exact alike_child he h hpaired hkept

theorem alike_optional (hkept : Kept e o o' name .node) :
    Alike e t t' (optional o name category scope) (optional o' name category scope) := by
  unfold optional
  rcases eq_none_or_of_rel (h.child hkept) with ⟨hnone, hnone'⟩ | ⟨c, c', hc, hc', hpaired⟩
  · rw [hnone, hnone']
    exact .nil
  · rw [hc, hc']
    exact alike_child he h hpaired hkept

theorem alike_withList {q : Place} (hkept : Kept e o o' name q) {f g : List Tree → List Step}
    (hfg : ∀ values values', o.value.child? name >>= Tree.elements? = some values →
      o'.value.child? name >>= Tree.elements? = some values' →
      List.Forall₂ (Tree.Edited e q.element) values values' →
        Alike e t t' (f values) (g values')) :
    Alike e t t' (withList o name f) (withList o' name g) := by
  unfold withList
  rcases eq_none_or_of_rel hkept.rel with ⟨hnone, hnone'⟩ | ⟨c, c', hc, hc', hedited⟩
  · rw [hnone, hnone']
    exact alike_fault he h rfl
  · rcases eq_none_or_of_rel hedited.elements?_rel with
      ⟨hnone, hnone'⟩ | ⟨values, values', hvalues, hvalues', hall⟩
    · simp only [hc, hc', hnone, hnone']
      exact alike_fault he h rfl
    · simp only [hc, hc', hvalues, hvalues']
      refine hfg _ _ ?_ ?_ hall
      · rw [hc]; exact hvalues
      · rw [hc']; exact hvalues'

theorem alike_element {value value' : Tree} {index : Nat} {holes : Bool}
    (hvalue : Paired e t t' .node (o.element name index value) (o'.element name index value')) :
    Alike e t t' (element o name category holes scope value index)
      (element o' name category holes scope value' index) := by
  by_cases hnull : value = .null
  · obtain rfl : value' = .null := hvalue.edited.eq_null_iff.1 hnull
    subst hnull
    exact alike_faultIf he h rfl rfl
  · have hnull' : value' ≠ .null := fun heq => hnull (hvalue.edited.eq_null_iff.2 heq)
    rw [element_of_ne_null holes hnull, element_of_ne_null holes hnull']
    refine alike_present he h hvalue (Or.inl ?_)
    rintro ⟨⟩

theorem alike_elements (hkept : Kept e o o' name .nodes) {values values' : List Tree}
    (hvalues : o.value.child? name >>= Tree.elements? = some values)
    (hvalues' : o'.value.child? name >>= Tree.elements? = some values')
    (hedited : List.Forall₂ (Tree.Edited e .node) values values') {holes : Bool} :
    Alike e t t' (elements o name category holes scope values)
      (elements o' name category holes scope values') := by
  refine .flatMap (h.elements hkept (Or.inl rfl) hvalues hvalues' hedited) ?_
  rintro ⟨value, index⟩ ⟨value', _⟩ ⟨rfl, hvalue⟩
  exact alike_element he h hvalue

theorem alike_list (hkept : Kept e o o' name .nodes) :
    Alike e t t' (list o name category scope) (list o' name category scope) :=
  alike_withList he h hkept fun _ _ hvalues hvalues' hedited =>
    alike_elements he h hkept hvalues hvalues' hedited

/-! ### Names -/

theorem alike_operator (hkept : Kept e o o' "operator" .plain) (family : OperatorFamily) :
    Alike e t t' (operator o family) (operator o' family) := by
  unfold operator
  rcases eq_none_or_of_rel hkept.rel with ⟨hnone, hnone'⟩ | ⟨c, c', hc, hc', hedited⟩
  · rw [hnone, hnone']
    exact alike_fault he h rfl
  · have hdescribe := hedited.describe_eq he rfl
    rw [hc, hc']
    rcases hedited.eq_or_holds with rfl | ⟨_, _, rfl, rfl⟩ | ⟨_, _, rfl, rfl⟩
    · split
      · exact alike_fault he h rfl
      · exact alike_faultIf he h rfl rfl
      · exact alike_fault he h rfl
    · exact alike_fault he h rfl
    · simp only [hdescribe]
      exact alike_fault he h rfl

theorem alike_binding {target target' : Option Tree}
    (htarget : target >>= Tree.identifierName? = target' >>= Tree.identifierName?) :
    Alike e t t' (binding o scope target) (binding o' scope target') := by
  unfold binding
  rw [← htarget]
  split
  · split
    · exact alike_faultIf he h rfl rfl
    · exact .nil
  · exact .nil

/-- What stands in a field is bound before and after. -/
theorem alike_bound (hkept : Kept e o o' name .node) :
    Alike e t t' (binding o scope (o.value.child? name))
      (binding o' scope (o'.value.child? name)) :=
  alike_binding he h (bind_eq_of_rel hkept.rel fun _ _ hc => hc.identifierName?_eq he)

end

end Steps

end ScriptTree
