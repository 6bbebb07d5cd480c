/-
  What the rules look at ahead of a visit, before and after mild changes.

  A rule reads its own node, and now and then the nodes below it: a body for its
  directives, a consequent for an `else` it would take, a key for its name.  Each of these
  readings has one lemma here (`usesStrict_eq`, `capturesElse_eq`, `propertyName?_eq`): it
  gives the same before and after.
-/
import ScriptTree.Proofs.Edit
import ScriptTree.Proofs.OpenIf
import ScriptTree.Rule

namespace ScriptTree

open Grammar

namespace Tree.Edited

variable {e : Edits} (he : e.Mild) {t t' : Tree} {kind : Kind}
include he

/-! ## Nodes -/

/-- A text, a number or a flag that the rule of a kind reads. -/
theorem read_eq_of_kind (h : t.Edited e .node t') (hkind : t.kind? = some kind) {α : Type}
    {f : Tree → Option α} (hf : ReadsScalar f) (name : String)
    (hread : steady? (commonFields ++ fieldsOfKind t kind) name = some .plain) :
    t.get? name >>= f = t'.get? name >>= f := by
  rw [get?_bind hf.null, get?_bind hf.null]
  exact bind_eq_of_rel (h.child_of_kind he hkind name hread) fun _ _ hc => hc.scalar_eq hf

/-- A node that the rule of a kind reads has the same kind. -/
theorem childKind_eq (h : t.Edited e .node t') (hkind : t.kind? = some kind)
    (name : String) (hread : steady? (commonFields ++ fieldsOfKind t kind) name = some .node) :
    t.child? name >>= kind? = t'.child? name >>= kind? :=
  bind_eq_of_rel (h.child_of_kind he hkind name hread) fun _ _ hc => hc.kind?_eq he rfl

/-- A node that the rule of a kind reads has the same name. -/
theorem childName_eq (h : t.Edited e .node t') (hkind : t.kind? = some kind)
    (name : String) (hread : steady? (commonFields ++ fieldsOfKind t kind) name = some .node) :
    t.child? name >>= identifierName? = t'.child? name >>= identifierName? :=
  bind_eq_of_rel (h.child_of_kind he hkind name hread) fun _ _ hc => hc.identifierName?_eq he

/-- The nodes in a list that the rule of a kind reads correspond. -/
theorem elements_rel (h : t.Edited e .node t') (hkind : t.kind? = some kind) (name : String)
    (hread : steady? (commonFields ++ fieldsOfKind t kind) name = some .nodes) :
    Option.Rel (List.Forall₂ (Edited e .node)) (t.child? name >>= elements?)
      (t'.child? name >>= elements?) :=
  rel_bind (h.child_of_kind he hkind name hread) fun _ _ hlist => hlist.elements?_rel

theorem identifierNames_eq {values values' : List Tree}
    (h : List.Forall₂ (Edited e .node) values values') :
    values.filterMap identifierName? = values'.filterMap identifierName? := by
  induction h with
  | nil => rfl
  | cons hvalue _ ih =>
    rw [List.filterMap_cons, List.filterMap_cons, hvalue.identifierName?_eq he, ih]

/-! ## Expressions -/

theorem literalFault_eq (h : t.Edited e .node t') (hkind : t.kind? = some .literal) :
    Literal.fault? (t.get? "value") = Literal.fault? (t'.get? "value") := by
  rcases eq_none_or_of_rel (h.literalValue_rel he hkind) with
    ⟨hnone, hnone'⟩ | ⟨c, c', hc, hc', hedited⟩
  · rw [hnone, hnone']
  · have hdescribe := hedited.describe_eq he rfl
    rw [hc, hc']
    rcases hedited.eq_or_holds with rfl | ⟨_, _, rfl, rfl⟩ | ⟨_, _, rfl, rfl⟩
    · rfl
    · rfl
    · exact congrArg (fun found => some (Fault.invalidLiteralValue found)) hdescribe

theorem identifierFault_eq (h : t.Edited e .node t') (hkind : t.kind? = some .identifier)
    (strict : Bool) :
    Identifier.fault? strict (t.child? "name") = Identifier.fault? strict (t'.child? "name") := by
  rcases eq_none_or_of_rel (h.child_of_kind he hkind "name" rfl) with
    ⟨hnone, hnone'⟩ | ⟨c, c', hc, hc', hedited⟩
  · rw [hnone, hnone']
  · rw [hc, hc']
    rcases hedited.eq_or_holds with rfl | ⟨_, _, rfl, rfl⟩ | ⟨_, _, rfl, rfl⟩ <;> rfl

theorem isComputed_eq (h : t.Edited e .node t') (hkind : t.kind? = some .memberExpression) :
    Rule.isComputed t = Rule.isComputed t' := by
  rw [Rule.isComputed, Rule.isComputed, h.read_eq_of_kind he hkind readsScalar_bool? "computed" rfl]

theorem deletesIdentifier_eq (h : t.Edited e .node t')
    (hkind : t.kind? = some .unaryExpression) :
    Rule.deletesIdentifier t = Rule.deletesIdentifier t' := by
  rw [Rule.deletesIdentifier, Rule.deletesIdentifier,
    h.read_eq_of_kind he hkind readsScalar_string? "operator" rfl,
    h.childKind_eq he hkind "argument" rfl]

/-! ## Directives -/

theorem directive?_eq (h : t.Edited e .node t') :
    Prologue.directive? t = Prologue.directive? t' := by
  unfold Prologue.directive?
  rw [← h.kind?_eq he rfl]
  split
  · next hkind =>
    refine bind_eq_of_rel (h.child_of_kind he hkind "expression" rfl) fun c c' hc => ?_
    rw [← hc.kind?_eq he rfl]
    split
    · next hliteral => exact hc.read_eq_of_kind he hliteral readsScalar_string? "value" rfl
    · rfl
  · rfl

theorem usesStrict_eq {body body' : List Tree} (h : List.Forall₂ (Edited e .node) body body') :
    Prologue.usesStrict body = Prologue.usesStrict body' := by
  induction h with
  | nil => rfl
  | cons hstatement _ ih =>
    rw [Prologue.usesStrict, Prologue.usesStrict, hstatement.directive?_eq he, ih]

theorem bodyStatements?_rel (h : t.Edited e .node t') (hkind : t.kind? = some kind)
    (hread : steady? (commonFields ++ fieldsOfKind t kind) "body" = some .node) :
    Option.Rel (List.Forall₂ (Edited e .node)) (Rule.bodyStatements? t)
      (Rule.bodyStatements? t') := by
  refine rel_bind (h.child_of_kind he hkind "body" hread) fun body body' hbody => ?_
  rw [← hbody.kind?_eq he rfl]
  split
  · next hblock => exact hbody.elements_rel he hblock "body" rfl
  · exact .none

theorem functionScope_eq (h : t.Edited e .node t') (hkind : t.kind? = some kind)
    (hread : steady? (commonFields ++ fieldsOfKind t kind) "body" = some .node)
    (scope : Scope) : Rule.functionScope t scope = Rule.functionScope t' scope := by
  have hstrict : (Rule.bodyStatements? t).any Prologue.usesStrict =
      (Rule.bodyStatements? t').any Prologue.usesStrict := by
    rcases eq_none_or_of_rel (h.bodyStatements?_rel he hkind hread) with
      ⟨hnone, hnone'⟩ | ⟨body, body', hbody, hbody', hedited⟩
    · rw [hnone, hnone']
    · rw [hbody, hbody', Option.any_some, Option.any_some, usesStrict_eq he hedited]
  rw [Rule.functionScope, Rule.functionScope, Rule.isStrictFunction, Rule.isStrictFunction,
    hstrict]

/-! ## Statements -/

/-- Along the parts that are printed last, the same `else` is captured. -/
theorem capturesElse_eq (h : t.Edited e .node t') : t.capturesElse = t'.capturesElse := by
  induction hn : sizeOf t using Nat.strongRecOn generalizing t t' with
  | ind n ih =>
    subst hn
    have hkinds := h.kind?_eq he rfl
    cases hkind : t.kind? with
    | none => rw [capturesElse, capturesElse, ← hkinds, hkind]
    | some kind =>
      have hkind' := hkinds ▸ hkind
      -- an `if` is looked through at its end, then the statements that end with a body
      by_cases hif : kind = .ifStatement
      · subst hif
        rcases eq_none_or_of_rel (h.child_of_kind he hkind "alternate" rfl)
          with ⟨hnone, hnone'⟩ | ⟨a, a', ha, ha', hedited⟩
        · rw [capturesElse_of_bare hkind hnone, capturesElse_of_bare hkind' hnone']
          rcases eq_none_or_of_rel
            (h.child_of_kind he hkind "consequent" rfl)
            with ⟨hnone, hnone'⟩ | ⟨c, c', hc, hc', hedited⟩
          · rw [hnone, hnone']
          · rw [hc, hc', Option.any_some, Option.any_some, hedited.kind?_eq he rfl,
              ih _ (sizeOf_lt_of_child? hc) hedited rfl]
        · rw [capturesElse_of_alternate hkind ha, capturesElse_of_alternate hkind' ha',
            ih _ (sizeOf_lt_of_child? ha) hedited rfl]
      · by_cases hends : kind.endsWithBody = true
        · have hread : steady? (commonFields ++ fieldsOfKind t kind) "body" = some .node := by
            cases kind <;> first | rfl | cases hends
          rcases eq_none_or_of_rel (h.child_of_kind he hkind _ hread) with
            ⟨hnone, hnone'⟩ | ⟨b, b', hb, hb', hedited⟩
          · rw [capturesElse_of_bodiless hkind hends hnone,
              capturesElse_of_bodiless hkind' hends hnone']
          · rw [capturesElse_of_body hkind hends hb, capturesElse_of_body hkind' hends hb',
              ih _ (sizeOf_lt_of_child? hb) hedited rfl]
        · rw [capturesElse, capturesElse, hkind, hkind']
          simp only [hif, hends, if_false, Bool.false_eq_true]

theorem elseDangles_eq (h : t.Edited e .node t') (hkind : t.kind? = some .ifStatement) :
    Rule.elseDangles t = Rule.elseDangles t' := by
  have halternate := isSome_eq_of_rel
    (h.child_of_kind he hkind "alternate" rfl)
  rw [Rule.elseDangles, Rule.elseDangles, halternate]
  rcases eq_none_or_of_rel (h.child_of_kind he hkind "consequent" rfl)
    with ⟨hnone, hnone'⟩ | ⟨c, c', hc, hc', hedited⟩
  · rw [hnone, hnone']
  · rw [hc, hc', Option.any_some, Option.any_some, hedited.capturesElse_eq he]

theorem isDefaultCase_eq (h : t.Edited e .node t') :
    Rule.isDefaultCase t = Rule.isDefaultCase t' := by
  rw [Rule.isDefaultCase, Rule.isDefaultCase, ← h.kind?_eq he rfl]
  cases hcase : t.kind? == some .switchCase with
  | false => rfl
  | true =>
    have htest := isSome_eq_of_rel (h.child_of_kind he (eq_of_beq hcase) "test" rfl)
    rw [← Option.not_isSome, ← Option.not_isSome, htest]

/-- The default cases among cases correspond. -/
theorem defaultCases_rel {cases cases' : List Tree}
    (h : List.Forall₂ (Edited e .node) cases cases') :
    List.Forall₂ (Edited e .node) (cases.filter Rule.isDefaultCase)
      (cases'.filter Rule.isDefaultCase) :=
  List.rel_filter (fun _ _ hcase => iff_of_eq (congrArg (· = true) (hcase.isDefaultCase_eq he))) h

theorem hasDeclarationKind_eq (h : t.Edited e .node t')
    (hkind : t.kind? = some .variableDeclaration) :
    Rule.hasDeclarationKind t = Rule.hasDeclarationKind t' := by
  rw [Rule.hasDeclarationKind, Rule.hasDeclarationKind,
    h.read_eq_of_kind he hkind readsScalar_string? "kind" rfl]

/-! ## Properties -/

theorem propertyKind_eq (h : t.Edited e .property t') :
    PropertyKind.of? t = PropertyKind.of? t' := by
  rw [PropertyKind.of?, PropertyKind.of?, h.read_eq he readsScalar_string? "kind" rfl]

theorem propertyName?_eq (h : t.Edited e .node t') : propertyName? t = propertyName? t' := by
  unfold propertyName?
  rw [← h.kind?_eq he rfl]
  split
  · next hkind => rw [h.read_eq_of_kind he hkind readsScalar_string? "name" rfl]
  · next hkind =>
    exact h.read_eq_of_kind he hkind ⟨rfl, fun _ => rfl, fun _ => rfl⟩ "value" rfl
  · rfl

theorem signature?_eq (h : t.Edited e .property t') : signature? t = signature? t' := by
  have hkey : t.child? "key" >>= propertyName? = t'.child? "key" >>= propertyName? :=
    bind_eq_of_rel (h.child he "key" rfl) fun _ _ hc => hc.propertyName?_eq he
  unfold signature?
  rw [h.propertyKind_eq he, hkey]

theorem isFunctionOf_eq (h : t.Edited e .node t') (parameters : Nat) :
    isFunctionOf parameters t = isFunctionOf parameters t' := by
  have hchild : ∀ {u : Tree}, u.get? "params" >>= elements? = u.child? "params" >>= elements? :=
    get?_bind rfl
  rw [isFunctionOf, isFunctionOf, hchild, hchild, ← h.kind?_eq he rfl]
  cases hfunction : t.kind? == some .functionExpression with
  | false => rfl
  | true =>
    rcases eq_none_or_of_rel (h.elements_rel he (eq_of_beq hfunction) "params" rfl) with
      ⟨hnone, hnone'⟩ | ⟨list, list', hlist, hlist', hedited⟩
    · rw [hnone, hnone']
    · rw [hlist, hlist', Option.any_some, Option.any_some, hedited.length_eq]

end Tree.Edited

end ScriptTree
