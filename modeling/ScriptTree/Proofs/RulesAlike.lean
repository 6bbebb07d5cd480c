/-
  The traversals of a tree before and after harmless changes.

  * `alike_rule`: the rule of a node takes the same steps before and after, one by one.
  * `violations_alike`: so the same is found at every value that is looked at.
  * `findings_edited`: the two trees have the same findings, in the same order.
-/
import ScriptTree.Proofs.Pairing

namespace ScriptTree

open Grammar

/-! ## The rules -/

namespace Rule

open Steps

variable {e : Edits} {t t' : Tree} {o o' : Occurrence} {scope : Scope} {kind : Kind}

/-! ### Expressions -/

section
variable (he : e.Mild) (h : Paired e t t' .node o o')
include he h

theorem alike_arrayExpression (hkind : o.value.kind? = some .arrayExpression) :
    Alike e t t' (arrayExpression o scope) (arrayExpression o' scope) := by
  have hkept : Kept e o o' "elements" .nodes := h.kept_of_kind he hkind _ rfl
  exact alike_withList he h hkept fun _ _ hvalues hvalues' hedited =>
    alike_elements he h hkept hvalues hvalues' hedited

theorem alike_operation (family : OperatorFamily) (hoperator : Kept e o o' "operator" .plain)
    (hleft : Kept e o o' "left" .node) (hright : Kept e o o' "right" .node) :
    Alike e t t' (operation family o scope) (operation family o' scope) :=
  ((alike_operator he h hoperator family).append (alike_required he h hleft)).append
    (alike_required he h hright)

theorem alike_identifier (hkind : o.value.kind? = some .identifier) :
    Alike e t t' (identifier o scope) (identifier o' scope) := by
  refine alike_faults he h (h.edited.identifierFault_eq he hkind _) fun f hf => ?_
  rcases identifierFault_cases hf with rfl | ⟨word, rfl⟩ | ⟨word, rfl⟩ | rfl
  all_goals rfl

theorem alike_literal (hkind : o.value.kind? = some .literal) :
    Alike e t t' (literal o) (literal o') := by
  refine alike_faults he h (h.edited.literalFault_eq he hkind) fun f hf => ?_
  rcases literalFault_cases hf with rfl | ⟨_, rfl⟩ | rfl | rfl <;> rfl

theorem alike_memberName (hkept : Kept e o o' "property" .node) :
    Alike e t t' (memberName o) (memberName o') := by
  unfold memberName
  rcases eq_none_or_of_rel (h.child hkept) with ⟨hnone, hnone'⟩ | ⟨c, c', hc, hc', hname⟩
  · rw [hnone, hnone']
    exact alike_fault he h rfl
  · rw [hc, hc']
    have hvalid := hname.edited.identifierName?_eq he
    refine .append (alike_faultIf he h ?_ rfl) (alike_location he hname)
    rw [hvalid]

theorem alike_memberExpression (hkind : o.value.kind? = some .memberExpression) :
    Alike e t t' (memberExpression o scope) (memberExpression o' scope) := by
  have hkept : Kept e o o' "property" .node := h.kept_of_kind he hkind _ rfl
  refine (alike_required he h (h.kept_of_kind he hkind _ rfl)).append ?_
  rw [h.edited.isComputed_eq he hkind]
  split
  · exact alike_required he h hkept
  · exact alike_memberName he h hkept

theorem alike_sequenceExpression (hkind : o.value.kind? = some .sequenceExpression) :
    Alike e t t' (sequenceExpression o scope) (sequenceExpression o' scope) := by
  have hkept : Kept e o o' "expressions" .nodes := h.kept_of_kind he hkind _ rfl
  refine alike_withList he h hkept fun values values' hvalues hvalues' hedited => ?_
  have hlength : decide (values.length < 2) = decide (values'.length < 2) := by
    rw [hedited.length_eq]
  exact .append (alike_faultIf he h hlength rfl)
    (alike_elements he h hkept hvalues hvalues' hedited)

theorem alike_unaryExpression (hkind : o.value.kind? = some .unaryExpression) :
    Alike e t t' (unaryExpression o scope) (unaryExpression o' scope) := by
  refine ((alike_operator he h (h.kept_of_kind he hkind _ rfl) _).append
    (alike_required he h (h.kept_of_kind he hkind _ rfl))).append (alike_faultIf he h ?_ rfl)
  rw [h.edited.deletesIdentifier_eq he hkind]

theorem alike_updateExpression (hkind : o.value.kind? = some .updateExpression) :
    Alike e t t' (updateExpression o scope) (updateExpression o' scope) := by
  have hargument : Kept e o o' "argument" .node := h.kept_of_kind he hkind _ rfl
  refine (((alike_operator he h (h.kept_of_kind he hkind _ rfl) _).append
    (alike_required he h hargument)).append (alike_bound he h hargument)).append ?_
  rcases eq_none_or_of_rel (h.edited.child_of_kind he hkind "prefix" rfl) with
    ⟨hnone, hnone'⟩ | ⟨c, c', hc, hc', hedited⟩
  · rw [hnone, hnone']
    exact .nil
  · rw [hc, hc']
    rcases hedited.eq_or_holds with rfl | ⟨_, _, rfl, rfl⟩ | ⟨_, _, rfl, rfl⟩
    · split
      · exact .nil
      · exact .nil
      · exact alike_fault he h rfl
    · exact alike_fault he h rfl
    · exact alike_fault he h rfl

/-! ### Functions -/

theorem alike_program (hkind : o.value.kind? = some .program) :
    Alike e t t' (program o scope) (program o' scope) := by
  have hkept : Kept e o o' "body" .nodes := h.kept_of_kind he hkind _ rfl
  refine alike_withList he h hkept fun body body' hbody hbody' hedited => ?_
  rw [Tree.Edited.usesStrict_eq he hedited]
  exact alike_elements he h hkept hbody hbody' hedited

theorem alike_functionName (form : FunctionForm) (hkept : Kept e o o' "id" .node) :
    Alike e t t' (functionName form o scope) (functionName form o' scope) := by
  refine .append ?_ (alike_bound he h hkept)
  cases form with
  | declaration => exact alike_required he h hkept
  | expression => exact alike_optional he h hkept

theorem alike_parameters (hkept : Kept e o o' "params" .nodes) :
    Alike e t t' (parameters o scope) (parameters o' scope) := by
  refine alike_withList he h hkept fun params params' hparams hparams' hedited => ?_
  refine .append (.append (alike_elements he h hkept hparams hparams' hedited) ?_) ?_
  · exact .flatMap hedited fun _ _ hparam => alike_binding he h (hparam.identifierName?_eq he)
  · rw [Tree.Edited.identifierNames_eq he hedited]
    split
    · refine .flatMap (List.forall₂_same.2 fun _ _ => rfl) ?_
      rintro name _ rfl
      exact alike_fault he h rfl
    · exact .nil

theorem alike_functionBody {outer inner : Scope} (hkept : Kept e o o' "body" .node) :
    Alike e t t' (functionBody o outer inner) (functionBody o' outer inner) := by
  unfold functionBody
  rcases eq_none_or_of_rel (h.child hkept) with ⟨hnone, hnone'⟩ | ⟨c, c', hc, hc', hbody⟩
  · rw [hnone, hnone']
    exact alike_fault he h rfl
  · simp only [hc, hc', ← hbody.edited.kind?_eq he rfl]
    split
    · next hblock => exact .cons (.visit hbody fun _ => hblock) .nil
    · exact alike_child he h hbody hkept

theorem alike_function (form : FunctionForm) (hkind : o.value.kind? = some form.kind) :
    Alike e t t' (function form o scope) (function form o' scope) := by
  have hid : Kept e o o' "id" .node := h.kept_of_kind he hkind _ (by cases form <;> rfl)
  have hparams : Kept e o o' "params" .nodes := h.kept_of_kind he hkind _ (by cases form <;> rfl)
  have hread : steady? (commonFields ++ fieldsOfKind o.value form.kind) "body" = some .node := by
    cases form <;> rfl
  have hbody : Kept e o o' "body" .node := h.kept_of_kind he hkind _ hread
  rw [function, function, h.edited.functionScope_eq he hkind hread]
  exact ((alike_functionName he h form hid).append (alike_parameters he h hparams)).append
    (alike_functionBody he h hbody)

end

/-! ### Properties -/

section
variable (he : e.Mild) (h : Paired e t t' .property o o')
include he h

theorem alike_propertyKey : Alike e t t' (propertyKey o) (propertyKey o') := by
  unfold propertyKey
  rcases eq_none_or_of_rel (h.child (h.kept he "key" rfl)) with
    ⟨hnone, hnone'⟩ | ⟨c, c', hc, hc', hkey⟩
  · rw [hnone, hnone']
    exact alike_fault he h rfl
  · rw [hc, hc']
    have hname := hkey.edited.propertyName?_eq he
    refine .append (alike_faultIf he h ?_ rfl) (alike_location he hkey)
    rw [hname]

theorem alike_accessor : Alike e t t' (accessor o) (accessor o') := by
  unfold accessor
  rw [← h.edited.propertyKind_eq he]
  rcases eq_none_or_of_rel (h.edited.child he "value" rfl) with
    ⟨hnone, hnone'⟩ | ⟨c, c', hc, hc', hedited⟩
  · rw [hnone, hnone']
    split
    · next heq => cases heq
    · next heq => cases heq
    · exact .nil
  · rw [hc, hc']
    cases PropertyKind.of? o.value with
    | none => exact .nil
    | some kind =>
      cases kind with
      | init => exact .nil
      | get => exact alike_faultIf he h (by rw [hedited.isFunctionOf_eq he]) rfl
      | set => exact alike_faultIf he h (by rw [hedited.isFunctionOf_eq he]) rfl

theorem alike_conflict (names : SeenNames) :
    Alike e t t' (conflict o scope names) (conflict o' scope names) := by
  unfold conflict
  rw [← h.edited.signature?_eq he]
  split
  · refine alike_faults he h rfl fun f hf => ?_
    rcases seenFault_cases hf with rfl | rfl <;> rfl
  · exact .nil

theorem alike_property (names : SeenNames) :
    Alike e t t' (property o scope names) (property o' scope names) := by
  have hvalid : (PropertyKind.of? o.value).isNone = (PropertyKind.of? o'.value).isNone := by
    rw [h.edited.propertyKind_eq he]
  have hkind : Alike e t t' (faultIf (PropertyKind.of? o.value).isNone o .invalidPropertyKind)
      (faultIf (PropertyKind.of? o'.value).isNone o' .invalidPropertyKind) :=
    alike_faultIf he h hvalid rfl
  exact (((((alike_location he h).append hkind).append (alike_propertyKey he h)).append
    (alike_required he h (h.kept he "value" rfl))).append (alike_accessor he h)).append
      (alike_conflict he h names)

end

section
variable (he : e.Mild) (h : Paired e t t' .node o o')
include he h

theorem alike_properties {values values' : List (Tree × Nat)}
    (hvalues : List.Forall₂ (fun v v' => v.2 = v'.2 ∧
      Paired e t t' .property (o.element "properties" v.2 v.1) (o'.element "properties" v'.2 v'.1))
      values values') (names : SeenNames) :
    Alike e t t' (properties o scope names values) (properties o' scope names values') := by
  induction hvalues generalizing names with
  | nil => exact .nil
  | @cons v v' rest rest' hv hrest ih =>
    obtain ⟨value, index⟩ := v
    obtain ⟨value', _⟩ := v'
    obtain ⟨rfl, hproperty⟩ := hv
    have hobject : value.isObject = value'.isObject := hproperty.edited.isObject_eq
    have hremember : remember names value = remember names value' := by
      have hsignature : signature? value = signature? value' := hproperty.edited.signature?_eq he
      rw [remember, remember, hsignature]
    rw [properties, properties, ← hobject, ← hremember]
    split
    · exact (alike_property he hproperty names).append (ih _)
    · exact .append (alike_fault he h rfl) (ih names)

theorem alike_objectExpression (hkept : Kept e o o' "properties" .properties) :
    Alike e t t' (objectExpression o scope) (objectExpression o' scope) := by
  refine alike_withList he h hkept fun values values' hvalues hvalues' hedited => ?_
  exact alike_properties he h (h.elements hkept (Or.inr rfl) hvalues hvalues' hedited) []

/-! ### Statements -/

theorem alike_labelUse (hkept : Kept e o o' "label" .node) :
    Alike e t t' (labelUse o scope) (labelUse o' scope) := by
  have hname : o.value.child? "label" >>= Tree.identifierName? =
      o'.value.child? "label" >>= Tree.identifierName? :=
    bind_eq_of_rel hkept.rel fun _ _ hc => hc.identifierName?_eq he
  unfold labelUse
  rw [← hname]
  refine .append (alike_optional he h hkept) ?_
  split
  · exact alike_faultIf he h rfl rfl
  · exact .nil

theorem alike_labeledStatement (hkind : o.value.kind? = some .labeledStatement) :
    Alike e t t' (labeledStatement o scope) (labeledStatement o' scope) := by
  have hbody : Kept e o o' "body" .node := h.kept_of_kind he hkind _ rfl
  unfold labeledStatement
  rw [← h.edited.childName_eq he hkind "label" rfl]
  refine .append (alike_required he h (h.kept_of_kind he hkind _ rfl)) ?_
  split
  · exact .append (alike_faultIf he h rfl rfl) (alike_required he h hbody)
  · exact alike_required he h hbody

theorem alike_ifStatement (hkind : o.value.kind? = some .ifStatement) :
    Alike e t t' (ifStatement o scope) (ifStatement o' scope) :=
  (((alike_required he h (h.kept_of_kind he hkind _ rfl)).append
    (alike_required he h (h.kept_of_kind he hkind _ rfl))).append
      (alike_optional he h (h.kept_of_kind he hkind _ rfl))).append
        (alike_faultIf he h (h.edited.elseDangles_eq he hkind) rfl)

theorem alike_switchStatement (hkind : o.value.kind? = some .switchStatement) :
    Alike e t t' (switchStatement o scope) (switchStatement o' scope) := by
  have hkept : Kept e o o' "cases" .nodes := h.kept_of_kind he hkind _ rfl
  refine .append (alike_required he h (h.kept_of_kind he hkind _ rfl)) ?_
  refine alike_withList he h hkept fun cases cases' hcases hcases' hedited => ?_
  refine .append (alike_elements he h hkept hcases hcases' hedited) ?_
  rw [← List.drop_one, ← List.drop_one]
  refine .flatMap (List.forall₂_drop 1 (Tree.Edited.defaultCases_rel he hedited)) fun _ _ _ => ?_
  exact alike_fault he h rfl

theorem alike_variableDeclaration (hkind : o.value.kind? = some .variableDeclaration) :
    Alike e t t' (variableDeclaration o scope) (variableDeclaration o' scope) := by
  have hkept : Kept e o o' "declarations" .nodes := h.kept_of_kind he hkind _ rfl
  have hvalid : (!hasDeclarationKind o.value) = !hasDeclarationKind o'.value := by
    rw [h.edited.hasDeclarationKind_eq he hkind]
  refine .append (alike_faultIf he h hvalid rfl) ?_
  refine alike_withList he h hkept fun values values' hvalues hvalues' hedited => ?_
  have hempty : values.isEmpty = values'.isEmpty := by
    cases hedited <;> rfl
  exact .append (alike_elements he h hkept hvalues hvalues' hedited)
    (alike_faultIf he h hempty rfl)

/-! ### Catch clauses -/

/-- A single catch clause that is put in a list is looked at there. -/
theorem alike_listed {c c' : Tree} (hlists : e.listsClauses = true)
    (hlisted : o.value.ClauseListed o'.value c c') (hedited : c.Edited e .node c') :
    Alike e t t' (catchClauses o scope) (catchClauses o' scope) := by
  have hclause : o.child? "handler" = some ⟨.field "handler" :: o.trail, c⟩ :=
    Occurrence.child?_eq_some_iff.2 ⟨hlisted.clause_eq, rfl⟩
  have hnull : c' ≠ .null := fun hnull =>
    (Tree.child?_eq_some_iff.1 hlisted.clause_eq).2 (hedited.eq_null_iff.2 hnull)
  have hbefore : catchClauses o scope =
      present o (.named "handler") .catchClause scope ⟨.field "handler" :: o.trail, c⟩ := by
    rw [catchClauses, hlisted.no_list]
    simp only [Steps.optional, hclause]
  have hafter : catchClauses o' scope =
      present o' (.element "handlers" 0) .catchClause scope (o'.element "handlers" 0 c') := by
    rw [catchClauses, hlisted.child?_list]
    simp [Tree.elements?, elements, element_of_ne_null false hnull]
  have hpaired := h.listed hlists hlisted hedited
  -- both report a clause of another kind, the one as the field and the other as its element
  rw [hbefore, hafter, present, present, ← hpaired.edited.kind?_eq he rfl]
  refine .append ?_ (.cons (.visit hpaired fun hrole => by cases hrole) .nil)
  split
  · next found _ =>
    cases Category.catchClause.contains found with
    | true => exact .nil
    | false =>
      have hfinding := h.finding_listed he hlists hlisted.lists
        (.misplaced (.named "handler") .catchClause found)
      exact .cons (.report hfinding) .nil
  · exact .nil

theorem hasCatchClause_eq (hkind : o.value.kind? = some .tryStatement) :
    hasCatchClause o.value = hasCatchClause o'.value := by
  unfold hasCatchClause
  rcases h.edited.catchClauses_rel he hkind with ⟨hlist, hclause⟩ | ⟨-, c, c', hlisted, -⟩
  · rcases eq_none_or_of_rel hlist with ⟨hnone, hnone'⟩ | ⟨l, l', hl, hl', hedited⟩
    · rw [hnone, hnone']
      exact isSome_eq_of_rel (hclause hnone)
    · rw [hl, hl']
      rcases hedited.eq_or_holds with rfl | ⟨_, _, rfl, rfl⟩ | ⟨_, _, rfl, rfl⟩
      · cases l <;> rfl
      · cases hedited.elements?_rel with
        | some hclauses => cases hclauses <;> rfl
      · rfl
  · rw [hlisted.no_list, hlisted.child?_list, hlisted.clause_eq]
    rfl

theorem alike_catchClauses (hkind : o.value.kind? = some .tryStatement) :
    Alike e t t' (catchClauses o scope) (catchClauses o' scope) := by
  rcases h.edited.catchClauses_rel he hkind with
    ⟨hlist, hclause⟩ | ⟨hlists, c, c', hlisted, hedited⟩
  · have hstays : o.value.lists o'.value = false := by
      rw [Tree.lists, ← isSome_eq_of_rel hlist]
      cases o.value.child? "handlers" <;> simp
    rw [catchClauses_eq, catchClauses_eq, ← isSome_eq_of_rel hlist]
    split
    · exact alike_list he h ⟨hlist, Or.inr hstays⟩
    · next hnone =>
      have hclause := hclause (Option.not_isSome_iff_eq_none.1 hnone)
      exact alike_optional he h ⟨hclause, Or.inr hstays⟩
  · exact alike_listed he h hlists hlisted hedited

theorem alike_ofKind (hkind : o.value.kind? = some kind)
    (hproperties : kind = .objectExpression → Kept e o o' "properties" .properties) :
    Alike e t t' (ofKind kind o scope) (ofKind kind o' scope) := by
  have hkept : ∀ {name : String} {q : Place},
      steady? (commonFields ++ fieldsOfKind o.value kind) name = some q → Kept e o o' name q :=
    h.kept_of_kind he hkind _
  cases kind with
  | program => exact alike_program he h hkind
  | arrayExpression => exact alike_arrayExpression he h hkind
  | assignmentExpression =>
    exact (alike_operation he h _ (hkept rfl) (hkept rfl) (hkept rfl)).append
      (alike_bound he h (hkept rfl))
  | binaryExpression | logicalExpression =>
    exact alike_operation he h _ (hkept rfl) (hkept rfl) (hkept rfl)
  | callExpression | newExpression =>
    exact (alike_required he h (hkept rfl)).append (alike_list he h (hkept rfl))
  | conditionalExpression =>
    exact ((alike_required he h (hkept rfl)).append (alike_required he h (hkept rfl))).append
      (alike_required he h (hkept rfl))
  | functionExpression => exact alike_function he h .expression hkind
  | functionDeclaration => exact alike_function he h .declaration hkind
  | identifier => exact alike_identifier he h hkind
  | literal => exact alike_literal he h hkind
  | memberExpression => exact alike_memberExpression he h hkind
  | objectExpression => exact alike_objectExpression he h (hproperties rfl)
  | sequenceExpression => exact alike_sequenceExpression he h hkind
  | thisExpression | debuggerStatement | emptyStatement => exact .nil
  | unaryExpression => exact alike_unaryExpression he h hkind
  | updateExpression => exact alike_updateExpression he h hkind
  | blockStatement => exact alike_list he h (hkept rfl)
  | breakStatement | continueStatement =>
    exact .append (alike_faultIf he h rfl rfl) (alike_labelUse he h (hkept rfl))
  | doWhileStatement =>
    exact .append (alike_required he h (hkept rfl)) (alike_required he h (hkept rfl))
  | expressionStatement | throwStatement => exact alike_required he h (hkept rfl)
  | forInStatement =>
    exact .append (.append (.append (alike_required he h (hkept rfl))
      (alike_bound he h (hkept rfl))) (alike_required he h (hkept rfl)))
      (alike_required he h (hkept rfl))
  | forStatement =>
    exact .append (.append (.append (alike_optional he h (hkept rfl))
      (alike_optional he h (hkept rfl))) (alike_optional he h (hkept rfl)))
      (alike_required he h (hkept rfl))
  | ifStatement => exact alike_ifStatement he h hkind
  | labeledStatement => exact alike_labeledStatement he h hkind
  | returnStatement =>
    exact .append (alike_faultIf he h rfl rfl) (alike_optional he h (hkept rfl))
  | switchStatement => exact alike_switchStatement he h hkind
  | tryStatement =>
    have hbare : (!hasCatchClause o.value && (o.value.child? "finalizer").isNone) =
        (!hasCatchClause o'.value && (o'.value.child? "finalizer").isNone) := by
      rw [hasCatchClause_eq he h hkind, ← Option.not_isSome, ← Option.not_isSome,
        isSome_eq_of_rel (h.edited.child_of_kind he hkind "finalizer" rfl)]
    exact .append (.append (.append (alike_required he h (hkept rfl))
      (alike_catchClauses he h hkind)) (alike_optional he h (hkept rfl)))
      (alike_faultIf he h hbare rfl)
  | variableDeclaration => exact alike_variableDeclaration he h hkind
  | whileStatement =>
    exact .append (alike_required he h (hkept rfl)) (alike_required he h (hkept rfl))
  | withStatement =>
    exact .append (.append (alike_faultIf he h rfl rfl) (alike_required he h (hkept rfl)))
      (alike_required he h (hkept rfl))
  | catchClause =>
    exact .append (.append (alike_required he h (hkept rfl)) (alike_bound he h (hkept rfl)))
      (alike_required he h (hkept rfl))
  | switchCase => exact .append (alike_optional he h (hkept rfl)) (alike_list he h (hkept rfl))
  | variableDeclarator =>
    exact .append (.append (alike_required he h (hkept rfl)) (alike_bound he h (hkept rfl)))
      (alike_optional he h (hkept rfl))

end

end Rule

/-- **The rule of a node takes the same steps before and after the changes.** -/
theorem alike_rule {e : Edits} (he : e.Mild) {t t' : Tree} {o o' : Occurrence}
    (h : Paired e t t' .node o o') {role : Role} {kind : Kind} (scope : Scope)
    (hkind : o.value.kind? = some kind) (hrole : role = .functionBody → kind = .blockStatement)
    (hproperties : kind = .objectExpression → Kept e o o' "properties" .properties) :
    Steps.Alike e t t' (rule role scope o kind) (rule role scope o' kind) := by
  refine .append (Steps.alike_location he h) ?_
  cases role with
  | node => exact Rule.alike_ofKind he h hkind hproperties
  | functionBody =>
    obtain rfl := hrole rfl
    exact Steps.alike_list he h (h.kept_of_kind he hkind "body" rfl)

/-! ## The findings -/

/-- Violations before and after the changes, one by one. -/
def FoundAlike (e : Edits) (t t' : Tree) (a b : List Violation) : Prop :=
  List.Forall₂ (fun w w' => w'.finding = w.finding.after e t t') a b

/-- If the visits among the steps find the same, so do the steps. -/
theorem Steps.Alike.found {e : Edits} {t t' : Tree} {a b : List Step} (h : Alike e t t' a b)
    (hvisit : ∀ role scope c c', Step.visit role scope c ∈ a → Paired e t t' .node c c' →
      (role = .functionBody → c.value.kind? = some .blockStatement) →
      FoundAlike e t t' (violations role scope c) (violations role scope c')) :
    FoundAlike e t t' (a.flatMap Step.violations) (b.flatMap Step.violations) := by
  induction h with
  | nil => exact .nil
  | @cons step step' a b hstep _ ih =>
    have hrest := ih fun role scope c c' hc => hvisit role scope c c' (List.mem_cons_of_mem _ hc)
    refine List.rel_append ?_ hrest
    cases hstep with
    | report hfinding => exact .cons hfinding .nil
    | visit hpaired hrole => exact hvisit _ _ _ _ List.mem_cons_self hpaired hrole

/-- The same is found at every value that is looked at before and after the changes. -/
theorem violations_alike {e : Edits} (he : e.Harmless) {t t' : Tree} {o o' : Occurrence}
    (h : Paired e t t' .node o o') (role : Role) (scope : Scope)
    (hrole : role = .functionBody → o.value.kind? = some .blockStatement) :
    FoundAlike e t t' (violations role scope o) (violations role scope o') := by
  -- by the size of the value before the changes; after them it may be larger
  induction hn : sizeOf o.value using Nat.strongRecOn generalizing role scope o o' with
  | ind n ih =>
    subst hn
    rw [violations_eq, violations_eq, ← h.edited.nodeKind_eq he.mild]
    cases hnode : o.value.nodeKind with
    | error fault =>
      have hstays := Fault.stays_of_not_mayCharge (Tree.not_mayCharge_of_nodeKind hnode .program)
      exact .cons (h.finding_eq he.mild (Or.inl hstays)) .nil
    | ok kind =>
      have hkind := Tree.nodeKind_eq_ok_iff.1 hnode
      have hblock : role = .functionBody → kind = .blockStatement := fun heq =>
        Option.some.inj (hkind.symm.trans (hrole heq))
      have hproperties : kind = .objectExpression → Kept e o o' "properties" .properties :=
        fun heq => h.kept_properties he (heq ▸ hkind)
      refine (alike_rule he.mild h scope hkind hblock hproperties).found
        fun _ _ _ _ hc hpaired hrole => ?_
      exact ih _ (within_rule _ hc) hpaired _ _ hrole rfl

/-- **Harmless changes of a tree do not change what is found**, but for the places of catch
    clauses that are put in lists. -/
theorem findings_edited {e : Edits} (he : e.Harmless) {t t' : Tree} (h : t.Edited e .node t')
    (strict : Bool) :
    (t'.violations strict).map Violation.finding =
      (t.violations strict).map fun w => w.finding.after e t t' := by
  have hfound : FoundAlike e t t' (t.violations strict) (t'.violations strict) :=
    violations_alike he (.root h) .node (.root strict) fun hrole => by cases hrole
  have hall : List.Forall₂ (· = ·) ((t'.violations strict).map Violation.finding)
      ((t.violations strict).map fun w => w.finding.after e t t') := by
    rw [List.forall₂_map_left_iff, List.forall₂_map_right_iff]
    exact hfound.flip
  rwa [List.forall₂_eq_eq_eq] at hall

end ScriptTree
