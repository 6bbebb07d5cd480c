/-
  Which accepted programs are read again as what they were.

  * `endsOpen_iff_endsStacked`: in an accepted tree, an open `if` between an `if` and its
    `else` is always directly around another one, which is the case that
    `Tree.capturesElse` passes over.
  * `else_binding`: an accepted program is read again as it was iff it has none of these.
  * `Tree.misreadProgram`: an accepted program that has one.
-/
import ScriptTree.Proofs.Acceptance
import ScriptTree.Proofs.TreeSkeleton

namespace ScriptTree

namespace Tree

variable {strict : Bool} {t : Tree} {v : Visit}

/-! ## Accepted programs -/

/-- The `if` that a visited statement ends in is visited. -/
theorem Visits.exists_of_openEnd {s u : Tree} (hend : s.OpenEnd u) (h : t.Visits strict v)
    (hs : v.occurrence.value = s) : ∃ w, t.Visits strict w ∧ w.occurrence.value = u := by
  induction hend generalizing v with
  | here => exact ⟨v, h, hs⟩
  | alternate hkind ha _ ih =>
    subst hs
    obtain ⟨w, hw, hvalue⟩ := h.exists_of_mem_children
      ((mem_children_iff hkind).2 (Or.inr ⟨"alternate", by simp [Kind.endFields], ha⟩))
    exact ih hw hvalue
  | @body s b u kind hkind hends hb _ ih =>
    subst hs
    have hne : kind ≠ .ifStatement := by
      rintro rfl
      cases hends
    have hfield : "body" ∈ kind.endFields := by simp [Kind.endFields_of_ne hne, hends]
    obtain ⟨w, hw, hvalue⟩ :=
      h.exists_of_mem_children ((mem_children_iff hkind).2 (Or.inr ⟨"body", hfield, hb⟩))
    exact ih hw hvalue

/-- In an accepted tree, a consequent before an `else` that ends in an open `if` ends in one
    that is directly around another `if`. -/
theorem endsOpen_iff_endsStacked (h : t.violations strict = []) (hv : t.Visits strict v)
    (hkind : v.occurrence.value.kind? = some .ifStatement) {a c : Tree}
    (ha : v.occurrence.value.child? "alternate" = some a)
    (hc : v.occurrence.value.child? "consequent" = some c) : c.EndsOpen ↔ c.EndsStacked := by
  have hnot : c.capturesElse = false := by
    have hclean := clean_steps h hv
    rw [Visit.steps_of_kind hkind, hv.role_eq_node hkind (by simp)] at hclean
    have hdangles := Steps.clean_faultIf.1 (Steps.clean_append.1 (Steps.clean_append.1 hclean).2).2
    simpa [Rule.elseDangles, ha, hc] using hdangles
  refine ⟨?_, EndsStacked.endsOpen⟩
  rintro ⟨u, hu⟩
  -- the `if` at the end is visited itself, so it has a consequent
  obtain ⟨w, hw, hvalue⟩ := hv.exists_of_mem_children
    ((mem_children_iff hkind).2 (Or.inr ⟨"consequent", by simp [Kind.endFields], hc⟩))
  obtain ⟨x, hx, rfl⟩ := Visits.exists_of_openEnd hu hw hvalue
  obtain ⟨kind, hwell⟩ := exists_wellFormed h hx
  obtain rfl := Option.some.inj (hwell.isNode.symm.trans hu.bare.1)
  obtain ⟨d, hd, -⟩ := hwell.filled (Slot.one "consequent" .statement) (by
    rw [hx.role_eq_node hwell.isNode (by simp)]
    simp [Grammar.slots, Grammar.slotsOfKind])
  have hd : x.occurrence.value.child? "consequent" = some d := hd
  refine ⟨_, hu, ?_⟩
  rw [hd]
  exact stacked_of_not_capturesElse hu hnot hd

/-- **Where an accepted program is read again as it was.**  Between an `if` and its `else`
    it never has a statement that ends in an open `if`, but for an open `if` directly around
    another one; and its text is read as the program itself iff it has none of these
    either. -/
theorem else_binding (h : t.isValid strict = true) :
    (∀ v a c, t.Visits strict v → v.occurrence.value.kind? = some .ifStatement →
      v.occurrence.value.child? "alternate" = some a →
      v.occurrence.value.child? "consequent" = some c → (c.EndsOpen ↔ c.EndsStacked)) ∧
    ((∀ s, Reads t.skeleton.print s [] ↔ s = t.skeleton) ↔
      ∀ v a c, t.Visits strict v → v.occurrence.value.kind? = some .ifStatement →
        v.occurrence.value.child? "alternate" = some a →
        v.occurrence.value.child? "consequent" = some c → ¬ c.EndsStacked) := by
  obtain ⟨-, hnil⟩ := isValid_iff.1 h
  refine ⟨fun v a c hv hkind ha hc => endsOpen_iff_endsStacked hnil hv hkind ha hc, ?_⟩
  rw [Skeleton.reads_back_iff, faithful_skeleton_iff]
  constructor
  · intro hall v a c hv hkind ha hc hstacked
    exact hall v hv hkind a c ha hc hstacked.endsOpen
  · intro hall v hv hkind a c ha hc hopen
    exact hall v a c hv hkind ha hc ((endsOpen_iff_endsStacked hnil hv hkind ha hc).1 hopen)

/-! ## A program that is not read as it was -/

/-- An `if` with an empty consequent, and an empty alternate. -/
def shutIf : Tree :=
  .node .ifStatement [("test", named "a"), ("consequent", .node .emptyStatement []),
    ("alternate", .node .emptyStatement [])]

/-- An `if` without an `else` around one with an `else`. -/
def stackedIf : Tree := .node .ifStatement [("test", named "a"), ("consequent", shutIf)]

/-- The statement `if (a) if (a) if (a) ; else ; else ;`, as a tree in which the second
    `else` belongs to the first `if`. -/
def misreadIf : Tree :=
  .node .ifStatement [("test", named "a"), ("consequent", stackedIf),
    ("alternate", .node .emptyStatement [])]

/-- The program that consists of this statement. -/
def misreadProgram : Tree := .node .program [("body", .array [misreadIf])]

/-- Nothing is reported at or below an `if` that is in order itself and whose children are. -/
theorem violations_of_ifStatement {scope : Scope} {o : Occurrence}
    (hkind : o.value.kind? = some .ifStatement) (hdangles : Rule.elseDangles o.value = false)
    (hreports : Steps.reports (Steps.location o ++ (Steps.required o "test" .expression scope ++
      Steps.required o "consequent" .statement scope ++
      Steps.optional o "alternate" .statement scope)) = [])
    (hchildren : ∀ w ∈ (Grammar.slotsOfKind o.value .ifStatement).flatMap
      fun s => s.visits scope o, w.violations = []) :
    Visit.violations ⟨.node, scope, o⟩ = [] := by
  refine Visit.violations_eq_nil_of_next ?_ ?_
  · rw [Visit.own_of_kind hkind, Visit.steps_of_kind hkind]
    show Steps.reports (_ ++ (_ ++ Steps.faultIf (Rule.elseDangles o.value) _ _)) = []
    rw [hdangles, ← hreports]
    simp [Steps.faultIf]
  · rw [Visit.next_eq, Visit.slots, hkind]
    exact hchildren

theorem isValid_misreadProgram : misreadProgram.isValid false = true := by
  have hempty : capturesElse (.node .emptyStatement []) = false := by
    rw [capturesElse]
    rfl
  have hshut : shutIf.capturesElse = false := by
    rw [capturesElse_of_alternate rfl rfl, hempty]
  have hstacked : stackedIf.capturesElse = false := by
    rw [capturesElse_of_bare rfl rfl]
    exact hshut
  have hname : ∀ trail, Visit.violations ⟨.node, .root false, ⟨trail, named "a"⟩⟩ = [] :=
    fun trail => Visit.violations_eq_nil_of_isQuiet (show Visit.isQuiet 1 _ = true from rfl)
  have hstatement : ∀ trail,
      Visit.violations ⟨.node, .root false, ⟨trail, .node .emptyStatement []⟩⟩ = [] :=
    fun trail => Visit.violations_eq_nil_of_isQuiet (show Visit.isQuiet 1 _ = true from rfl)
  have hinner : ∀ trail, Visit.violations ⟨.node, .root false, ⟨trail, shutIf⟩⟩ = [] := by
    intro trail
    refine violations_of_ifStatement rfl hempty rfl ?_
    exact List.forall_mem_cons.2 ⟨hname _, List.forall_mem_cons.2 ⟨hstatement _,
      List.forall_mem_singleton.2 (hstatement _)⟩⟩
  have hmiddle : ∀ trail, Visit.violations ⟨.node, .root false, ⟨trail, stackedIf⟩⟩ = [] := by
    intro trail
    refine violations_of_ifStatement rfl rfl rfl ?_
    exact List.forall_mem_cons.2 ⟨hname _, List.forall_mem_singleton.2 (hinner _)⟩
  have houter : ∀ trail, Visit.violations ⟨.node, .root false, ⟨trail, misreadIf⟩⟩ = [] := by
    intro trail
    refine violations_of_ifStatement rfl hstacked rfl ?_
    exact List.forall_mem_cons.2 ⟨hname _, List.forall_mem_cons.2 ⟨hmiddle _,
      List.forall_mem_singleton.2 (hstatement _)⟩⟩
  refine isValid_iff.2 ⟨rfl, ?_⟩
  exact Visit.violations_eq_nil_of_next (v := .root false misreadProgram) rfl
    (List.forall_mem_singleton.2 (houter _))

/-- The first `if` of `misreadProgram` is visited. -/
theorem visits_misreadIf : misreadProgram.Visits false
    ⟨.node, .root false, .element (.root misreadProgram) "body" 0 misreadIf⟩ :=
  Visit.leads_of_follow (show Visit.follow _ [0] = _ from rfl)

theorem misreadProgram_misread : misreadProgram.isValid false = true ∧
    ¬ ∀ s, Reads misreadProgram.skeleton.print s [] ↔ s = misreadProgram.skeleton := by
  refine ⟨isValid_misreadProgram, fun hback => ?_⟩
  exact (else_binding isValid_misreadProgram).2.1 hback _ _ _ visits_misreadIf rfl rfl rfl
    ⟨stackedIf, .here rfl rfl, rfl⟩

/-- An accepted program has an open `if` between an `if` and its `else`. -/
theorem misreadProgram_endsOpen : misreadProgram.isValid false = true ∧
    ∃ v a c, misreadProgram.Visits false v ∧ v.occurrence.value.kind? = some .ifStatement ∧
      v.occurrence.value.child? "alternate" = some a ∧
      v.occurrence.value.child? "consequent" = some c ∧ c.EndsOpen :=
  ⟨isValid_misreadProgram, _, _, _, visits_misreadIf, rfl, rfl, rfl, stackedIf, .here rfl rfl⟩

end Tree

end ScriptTree
