/-
  The `if` that a statement ends in.

  * `Tree.OpenEnd`: the `if` without an `else` at the end of a statement, reached through
    the parts that are printed last.
  * `capturesElse_of_openEnd`: whether a statement captures an `else` is decided there;
    `stacked_of_not_capturesElse`: only an `if` directly around another one lets it pass;
    `capturesElse_iff`: nothing captures an `else` without such an `if`.
-/
import ScriptTree.Rule.Statement

namespace ScriptTree

namespace Tree

/-- The `if` without an `else` that a statement ends in. -/
inductive OpenEnd : Tree → Tree → Prop
  | here {t} : t.kind? = some .ifStatement → t.child? "alternate" = none → OpenEnd t t
  | alternate {t a u} : t.kind? = some .ifStatement → t.child? "alternate" = some a →
      OpenEnd a u → OpenEnd t u
  | body {t b u kind} : t.kind? = some kind → kind.endsWithBody = true →
      t.child? "body" = some b → OpenEnd b u → OpenEnd t u

/-- A statement ends in an `if` without an `else`. -/
def EndsOpen (t : Tree) : Prop := ∃ u, t.OpenEnd u

/-- A statement ends in an `if` without an `else` that is directly around another `if`. -/
def EndsStacked (t : Tree) : Prop :=
  ∃ u, t.OpenEnd u ∧ u.child? "consequent" >>= kind? = some .ifStatement

variable {t u a b c : Tree} {kind : Kind}

theorem EndsStacked.endsOpen (h : t.EndsStacked) : t.EndsOpen := by
  obtain ⟨u, hu, -⟩ := h
  exact ⟨u, hu⟩

/-! ## What captures an `else` -/

theorem capturesElse_of_alternate (hkind : t.kind? = some .ifStatement)
    (ha : t.child? "alternate" = some a) : t.capturesElse = a.capturesElse := by
  rw [capturesElse, hkind]
  simp only [if_true]
  split
  · next a' ha' => rw [Option.some.inj (ha.symm.trans ha')]
  · next hnone => cases ha.symm.trans hnone

theorem capturesElse_of_bare (hkind : t.kind? = some .ifStatement)
    (hnone : t.child? "alternate" = none) :
    t.capturesElse = (t.child? "consequent").any fun c =>
      c.kind? ≠ some .ifStatement || c.capturesElse := by
  rw [capturesElse, hkind]
  simp only [if_true]
  split
  · next a ha => cases hnone.symm.trans ha
  · split
    · next c hc => rw [hc]; rfl
    · next hc => rw [hc]; rfl

theorem capturesElse_of_body (hkind : t.kind? = some kind) (hends : kind.endsWithBody = true)
    (hb : t.child? "body" = some b) : t.capturesElse = b.capturesElse := by
  have hne : kind ≠ .ifStatement := by
    rintro rfl
    cases hends
  rw [capturesElse, hkind]
  simp only [hne, hends, if_false, if_true]
  split
  · next b' hb' => rw [Option.some.inj (hb.symm.trans hb')]
  · next hnone => cases hb.symm.trans hnone

theorem capturesElse_of_bodiless (hkind : t.kind? = some kind) (hends : kind.endsWithBody = true)
    (hnone : t.child? "body" = none) : t.capturesElse = false := by
  have hne : kind ≠ .ifStatement := by
    rintro rfl
    cases hends
  rw [capturesElse, hkind]
  simp only [hne, hends, if_false, if_true]
  split
  · next b hb => cases hnone.symm.trans hb
  · rfl

/-- Whether a statement captures an `else` is decided by the `if` that it ends in. -/
theorem capturesElse_of_openEnd (h : t.OpenEnd u) : t.capturesElse = u.capturesElse := by
  induction h with
  | here => rfl
  | alternate hkind ha _ ih => rw [capturesElse_of_alternate hkind ha, ih]
  | body hkind hends hb _ ih => rw [capturesElse_of_body hkind hends hb, ih]

theorem OpenEnd.bare (h : t.OpenEnd u) :
    u.kind? = some .ifStatement ∧ u.child? "alternate" = none := by
  induction h with
  | here hkind hnone => exact ⟨hkind, hnone⟩
  | alternate _ _ _ ih => exact ih
  | body _ _ _ _ ih => exact ih

/-- If a statement that ends in an open `if` does not capture an `else`, that `if` is
    directly around another one. -/
theorem stacked_of_not_capturesElse (h : t.OpenEnd u) (hnot : t.capturesElse = false)
    (hc : u.child? "consequent" = some c) : c.kind? = some .ifStatement := by
  obtain ⟨hkind, hnone⟩ := h.bare
  rw [capturesElse_of_openEnd h, capturesElse_of_bare hkind hnone, hc] at hnot
  by_cases hif : c.kind? = some .ifStatement
  · exact hif
  · simp [hif] at hnot

/-- **A statement captures an `else` iff it ends in an open `if` that does**: one around
    something else than an `if`, or around an `if` that captures the `else` itself. -/
theorem capturesElse_iff : t.capturesElse = true ↔ ∃ u c, t.OpenEnd u ∧
    u.child? "consequent" = some c ∧ (c.kind? ≠ some .ifStatement ∨ c.capturesElse = true) := by
  constructor
  · intro h
    -- along the parts that are printed last, down to the first open `if`
    induction t using capturesElse.induct with
    | case1 t hkind =>
      rw [capturesElse, hkind] at h
      cases h
    | case2 t a ha hkind ih =>
      obtain ⟨u, c, hend, hc⟩ := ih (capturesElse_of_alternate hkind ha ▸ h)
      exact ⟨u, c, .alternate hkind ha hend, hc⟩
    | case3 t hnone c hc hkind =>
      rw [capturesElse_of_bare hkind hnone, hc] at h
      exact ⟨t, c, .here hkind hnone, hc, by simpa using h⟩
    | case4 t hnone hc hkind =>
      rw [capturesElse_of_bare hkind hnone, hc] at h
      cases h
    | case5 t kind hkind _ hends b hb ih =>
      obtain ⟨u, c, hend, hc⟩ := ih (capturesElse_of_body hkind hends hb ▸ h)
      exact ⟨u, c, .body hkind hends hb hend, hc⟩
    | case6 t kind hkind _ hends hnone =>
      rw [capturesElse_of_bodiless hkind hends hnone] at h
      cases h
    | case7 t kind hkind hif hends =>
      rw [capturesElse, hkind] at h
      simp [hif, hends] at h
  · rintro ⟨u, c, hend, hc, hcaptures⟩
    obtain ⟨hkind, hnone⟩ := hend.bare
    rw [capturesElse_of_openEnd hend, capturesElse_of_bare hkind hnone, hc]
    simpa using hcaptures

end Tree

end ScriptTree
