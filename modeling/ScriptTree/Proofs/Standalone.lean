/-
  An expression by itself beside the program that consists of it.

  * `Tree.HasExpression`: an expression statement without a location, and what stands in the
    place of its expression.
  * `HasExpression.violations_program`: a program that consists of the statement is charged as
    the statement is, in the scope of the root; if the statement is a directive, the scope
    is strict, but then nothing depends on it.
  * `expression_like_program`: the program is valid iff the expression is.
-/
import ScriptTree.Proofs.Reporter
import ScriptTree.Proofs.Siblings

namespace ScriptTree

/-- An expression statement that has no location, with a value in the place of its
    expression. -/
structure Tree.HasExpression (t expression : Tree) : Prop where
  kind_eq : t.kind? = some .expressionStatement
  expression_eq : t.get? "expression" = some expression
  no_location : t.child? "loc" = none

/-- What is wrong with a literal does not depend on its scope. -/
theorem violations_literal {t : Tree} (hkind : t.kind? = some .literal) (scope scope' : Scope)
    (trail : List Selector) :
    violations .node scope ⟨trail, t⟩ = violations .node scope' ⟨trail, t⟩ := by
  rw [violations_eq, violations_eq]
  simp only [Tree.nodeKind_eq_ok_iff.2 hkind]
  rfl

namespace Tree.HasExpression

variable {p s e : Tree}

theorem required_of_null (h : s.HasExpression .null) (scope : Scope) (trail : List Selector) :
    Steps.required ⟨trail, s⟩ "expression" .expression scope =
      Steps.fault ⟨trail, s⟩ (.missing (.named "expression")) := by
  have hchild : s.child? "expression" = none := by rw [child?, h.expression_eq]
  simp [Steps.required, Occurrence.child?, hchild]

theorem required_of_ne_null (h : s.HasExpression e) (hnull : e ≠ .null) (scope : Scope)
    (trail : List Selector) :
    Steps.required ⟨trail, s⟩ "expression" .expression scope =
      Steps.present ⟨trail, s⟩ (.named "expression") .expression scope
        ⟨.field "expression" :: trail, e⟩ := by
  have hchild : s.child? "expression" = some e :=
    child?_eq_some_iff.2 ⟨h.expression_eq, hnull⟩
  simp [Steps.required, Occurrence.child?, hchild]

/-- Only a literal is a directive. -/
theorem kind_of_directive {text : String} (h : s.HasExpression e)
    (hdirective : Prologue.directive? s = some text) : e.kind? = some .literal := by
  rw [Prologue.directive?, if_pos h.kind_eq] at hdirective
  obtain ⟨found, hfound, hliteral⟩ := Option.bind_eq_some_iff.1 hdirective
  have hget := (child?_eq_some_iff.1 hfound).1
  obtain rfl := Option.some.inj (h.expression_eq.symm.trans hget)
  by_contra hkind
  rw [if_neg hkind] at hliteral
  cases hliteral

theorem violations_eq (h : s.HasExpression e) (scope : Scope) (trail : List Selector) :
    ScriptTree.violations .node scope ⟨trail, s⟩ =
      (Steps.required ⟨trail, s⟩ "expression" .expression scope).flatMap Step.violations := by
  rw [ScriptTree.violations_eq]
  simp [nodeKind_eq_ok_iff.2 h.kind_eq, rule, Rule.ofKind, Steps.location, Steps.locationFaults,
    h.no_location]

/-- What is wrong with the statement does not depend on whether the statement itself makes
    the code strict. -/
theorem violations_ofBody (h : s.HasExpression e) (strict : Bool) (trail : List Selector) :
    ScriptTree.violations .node (.ofBody strict [s]) ⟨trail, s⟩ =
      ScriptTree.violations .node (.root strict) ⟨trail, s⟩ := by
  cases hdirective : Prologue.directive? s with
  | none => rw [Scope.ofBody_cons strict [] hdirective]
  | some text =>
    have hkind := h.kind_of_directive hdirective
    have hnull : e ≠ .null := by
      rintro rfl
      cases hkind
    rw [h.violations_eq, h.violations_eq, h.required_of_ne_null hnull,
      h.required_of_ne_null hnull]
    simp only [Steps.present, List.flatMap_append, List.flatMap_singleton, Step.violations]
    rw [violations_literal hkind]

/-- **A program that consists of the statement is charged as the statement is**, in the scope
    of the root. -/
theorem violations_program (h : s.HasExpression e) (hp : p.HasBody .program [s])
    (strict : Bool) :
    p.violations strict =
      (Steps.required ⟨[.element 0, .field "body"], s⟩ "expression" .expression
        (.root strict)).flatMap Step.violations := by
  rw [hp.violations_program, violations_elements_singleton h.kind_eq rfl, ← h.violations_eq,
    ← h.violations_ofBody]
  rfl

/-- Nothing is wrong with the statement iff its expression is one, and nothing is wrong
    there. -/
theorem required_eq_nil_iff (h : s.HasExpression e) (strict : Bool) (trail : List Selector) :
    (Steps.required ⟨trail, s⟩ "expression" .expression (.root strict)).flatMap Step.violations =
      [] ↔ (∃ kind, e.kind? = some kind ∧ kind.isExpression = true) ∧ e.violations strict = [] := by
  have hbelow : ScriptTree.violations .node (.root strict) ⟨.field "expression" :: trail, e⟩ =
      [] ↔ e.violations strict = [] := by
    rw [violations_at, List.map_eq_nil_iff]
    rfl
  by_cases hnull : e = .null
  · subst hnull
    have hkind : kind? .null = none := rfl
    simp [h.required_of_null, Steps.fault, Step.violations, hkind]
  · rw [h.required_of_ne_null hnull]
    simp only [Steps.present, List.flatMap_append, List.flatMap_singleton, Step.violations,
      List.append_eq_nil_iff, hbelow]
    -- a value with nothing wrong is a node, and the only question is of what kind
    refine and_congr_left fun hviolations => ?_
    obtain ⟨kind, hkind⟩ := exists_kind_of_violations_eq_nil hviolations .refl
    have hkind : e.kind? = some kind := hkind
    cases hexpression : kind.isExpression with
    | true =>
      refine iff_of_true ?_ ⟨kind, hkind, hexpression⟩
      simp [hkind, Category.contains, hexpression, Steps.faultIf]
    | false =>
      refine iff_of_false ?_ ?_
      · simp [hkind, Category.contains, hexpression, Steps.faultIf, Steps.fault, Step.violations]
      · rintro ⟨found, hfound, htrue⟩
        obtain rfl := Option.some.inj (hkind.symm.trans hfound)
        rw [hexpression] at htrue
        cases htrue

theorem isValid_eq (h : s.HasExpression e) (hp : p.HasBody .program [s]) (strict : Bool) :
    p.isValid strict = e.isValidExpression strict := by
  rw [Bool.eq_iff_iff, isValid_iff, isValidExpression_iff, and_iff_right hp.kind_eq,
    h.violations_program hp, h.required_eq_nil_iff]

end Tree.HasExpression

theorem Tree.hasExpression_statement (e : Tree) : (Tree.statement e).HasExpression e :=
  ⟨rfl, rfl, rfl⟩

/-- **An expression by itself is like a program that consists of it.**  Any value is a valid
    expression iff the program with this one expression statement is valid: both mean that the
    value is a node of an expression kind, and that nothing is wrong with it at the root. -/
theorem expression_like_program (strict : Bool) (e : Tree) :
    e.isValidExpression strict = (Tree.program [.statement e]).isValid strict ∧
    ((Tree.program [.statement e]).isValid strict = true ↔
      (∃ kind, e.kind? = some kind ∧ kind.isExpression = true) ∧ e.violations strict = []) := by
  have hprogram : (Tree.program [.statement e]).HasBody .program [.statement e] := ⟨rfl, rfl, rfl⟩
  have hvalid := e.hasExpression_statement.isValid_eq hprogram strict
  rw [hvalid]
  exact ⟨rfl, Tree.isValidExpression_iff⟩

-- here the string is a directive, and the code of the program is strict
example : (Tree.program [.statement (.node .literal [("value", .string "use strict")])]).isValid
    false = true := by decide +kernel

end ScriptTree
