/-
  What only strict code is charged with, and where.

  * `Name.isStrictOnly`: the words that are reserved in strict code only.
  * `Tree.bindings`: the values that a node binds or assigns.
  * `Rule.restricted_ofKind`: the rule of a node reports the restricted names among them in
    strict code, and none in other code.
  * `strictness_placed`: a with statement, the deletion of a name, a reserved word and a
    restricted name are charged exactly in strict code.
-/
import ScriptTree.Proofs.Strictness
import ScriptTree.Proofs.Tally

namespace ScriptTree

namespace Name

/-- Whether a word is reserved in strict code only. -/
def isStrictOnly (word : String) : Bool := isReserved true word && !isReserved false word

variable {word : String}

theorem isReserved_of_isStrictOnly (h : isStrictOnly word = true) (strict : Bool) :
    isReserved strict word = strict := by
  rw [isStrictOnly, Bool.and_eq_true, Bool.not_eq_true'] at h
  cases strict with
  | true => exact h.1
  | false => exact h.2

/-- The words that are reserved in strict code only are names. -/
theorem isName_of_isStrictOnly (h : isStrictOnly word = true) : isName word = true := by
  have hnames : ∀ name ∈ strictReserved, isName name = true := by decide +kernel
  rw [isStrictOnly, isReserved, isReserved, Bool.true_and, Bool.false_and, Bool.or_false,
    Bool.and_eq_true, Bool.or_eq_true, Bool.not_eq_true'] at h
  obtain ⟨hreserved, hsloppy⟩ := h
  have hmem : strictReserved.contains word = true :=
    hreserved.resolve_left (by rw [hsloppy]; exact Bool.false_ne_true)
  exact hnames word (List.contains_iff_mem.1 hmem)

end Name

/-! ## The names that a node binds -/

namespace Tree

variable {t : Tree}

/-- The name of an identifier, if strict code neither binds nor assigns it. -/
def restrictedName? (t : Tree) : Option String := t.identifierName?.filter Name.isRestricted

/-- The values that a node of a kind binds or assigns. -/
def bindings (t : Tree) : Kind → List Tree
  | .assignmentExpression | .forInStatement => (t.child? "left").toList
  | .updateExpression => (t.child? "argument").toList
  | .catchClause => (t.child? "param").toList
  | .variableDeclarator => (t.child? "id").toList
  | .functionExpression | .functionDeclaration =>
    (t.child? "id").toList ++ (t.child? "params" >>= elements?).getD []
  | _ => []

theorem bindings_of_form (form : Rule.FunctionForm) :
    t.bindings form.kind = (t.child? "id").toList ++ (t.child? "params" >>= elements?).getD [] := by
  cases form <;> rfl

end Tree

/-- The restricted name that a fault is about. -/
def Fault.restricted? : Fault → Option String
  | restrictedName name => some name
  | _ => none

namespace Steps

variable {o : Occurrence} {scope : Scope} {steps : List Step}

/-- The restricted names that some steps report, in order. -/
def restricted (steps : List Step) : List String := (faults steps).filterMap Fault.restricted?

@[simp] theorem restricted_nil : restricted [] = [] := rfl

@[simp] theorem restricted_append (a b : List Step) :
    restricted (a ++ b) = restricted a ++ restricted b := by
  rw [restricted, faults_append, List.filterMap_append]
  rfl

theorem restricted_flatMap {α : Type} (l : List α) (g : α → List Step) :
    restricted (l.flatMap g) = l.flatMap fun a => restricted (g a) := by
  rw [restricted, faults_flatMap, List.filterMap_flatMap]
  rfl

/-- Steps for nodes of a kind that binds nothing report no restricted name. -/
theorem Charges.restricted_eq_nil {kind : Kind} (h : Charges kind steps)
    (hkind : ∀ name, (Fault.restrictedName name).mayCharge kind = false) :
    restricted steps = [] := by
  refine List.filterMap_eq_nil_iff.2 fun f hf => ?_
  cases f with
  | restrictedName name => exact absurd hf (h.not_mem_faults (hkind name))
  | _ => rfl

/-- What has to do with no kind of node in particular reports no restricted name. -/
theorem restricted_of_charges (h : Charges .emptyStatement steps) : restricted steps = [] :=
  h.restricted_eq_nil fun _ => rfl

theorem restricted_binding (target : Option Tree) :
    restricted (binding o scope target) =
      if scope.strict then target.toList.filterMap Tree.restrictedName? else [] := by
  unfold binding
  cases scope.strict with
  | false => rfl
  | true =>
    rw [if_pos rfl, if_pos rfl]
    cases target with
    | none => rfl
    | some value =>
      cases hname : value.identifierName? with
      | none =>
        have hnone : value.restrictedName? = none := by rw [Tree.restrictedName?, hname]; rfl
        simp [hname, hnone]
      | some name =>
        have hsome : value.restrictedName? =
            if Name.isRestricted name then some name else none := by
          rw [Tree.restrictedName?, hname]
          rfl
        cases hrestricted : Name.isRestricted name <;>
          simp [hname, hsome, hrestricted, restricted, Fault.restricted?]

theorem restricted_bindings (targets : List Tree) :
    restricted (targets.flatMap fun target => binding o scope (some target)) =
      if scope.strict then targets.filterMap Tree.restrictedName? else [] := by
  rw [restricted_flatMap]
  cases hstrict : scope.strict with
  | false => simp [restricted_binding, hstrict]
  | true => simp [restricted_binding, hstrict, List.filterMap_eq_flatMap_toList]

/-- An operator is charged for itself only. -/
theorem faults_operator {family : OperatorFamily} {f : Fault}
    (hf : f ∈ faults (operator o family)) : ∃ found, f = .invalidOperator family found := by
  unfold operator at hf
  split at hf
  · exact ⟨_, List.mem_singleton.1 hf⟩
  · next token _ =>
    rw [faults_faultIf] at hf
    split at hf
    · exact ⟨_, List.mem_singleton.1 hf⟩
    · cases hf
  · exact ⟨_, List.mem_singleton.1 hf⟩

end Steps

namespace Rule

open Steps

variable {o : Occurrence} {scope : Scope}

theorem strict_functionScope (function : Tree) :
    (functionScope function scope).strict = isStrictFunction function scope := by
  unfold functionScope
  cases hstrict : isStrictFunction function scope with
  | true => rfl
  | false =>
    rw [isStrictFunction, Bool.or_eq_false_iff] at hstrict
    exact hstrict.1

theorem restricted_operator (family : OperatorFamily) : restricted (operator o family) = [] := by
  refine List.filterMap_eq_nil_iff.2 fun f hf => ?_
  obtain ⟨found, rfl⟩ := faults_operator hf
  rfl

theorem restricted_required {name : String} {category : Category} :
    restricted (required o name category scope) = [] :=
  restricted_of_charges charges_required

theorem restricted_optional {name : String} {category : Category} :
    restricted (optional o name category scope) = [] :=
  restricted_of_charges charges_optional

theorem restricted_updateExpression : restricted (updateExpression o scope) =
    restricted (binding o scope (o.value.child? "argument")) := by
  unfold updateExpression
  rw [restricted_append, restricted_append, restricted_append, restricted_operator,
    restricted_required, List.nil_append, List.nil_append]
  split
  · exact List.append_nil _
  · exact List.append_nil _
  · exact List.append_nil _

theorem restricted_functionName (form : FunctionForm) :
    restricted (functionName form o scope) =
      restricted (binding o scope (o.value.child? "id")) := by
  unfold functionName
  cases form with
  | declaration => rw [restricted_append, restricted_required, List.nil_append]
  | expression => rw [restricted_append, restricted_optional, List.nil_append]

theorem restricted_parameters :
    restricted (parameters o scope) = if scope.strict then
      ((o.value.child? "params" >>= Tree.elements?).getD []).filterMap Tree.restrictedName?
      else [] := by
  have hrepeated : ∀ names : List String,
      restricted (names.flatMap fun name => fault o (.duplicateParameter name)) = [] := by
    intro names
    rw [restricted_flatMap]
    exact List.flatMap_eq_nil_iff.2 fun _ _ => rfl
  have hlast : ∀ names : List String, restricted (if scope.strict then
      names.flatMap fun name => fault o (.duplicateParameter name) else []) = [] := by
    intro names
    split
    · exact hrepeated names
    · rfl
  unfold parameters withList
  cases hlist : o.value.child? "params" with
  | none => cases scope.strict <;> rfl
  | some list =>
    cases hparams : list.elements? with
    | none =>
      simp only [Option.bind_eq_bind, Option.bind_some, hparams]
      cases scope.strict <;> rfl
    | some params =>
      simp only [Option.bind_eq_bind, Option.bind_some, hparams]
      rw [restricted_append, restricted_append, hlast, List.append_nil,
        restricted_of_charges charges_elements, List.nil_append, restricted_bindings]
      rfl

theorem restricted_functionBody {outer inner : Scope} :
    restricted (functionBody o outer inner) = [] :=
  restricted_of_charges charges_functionBody

theorem restricted_function (form : FunctionForm) :
    restricted (function form o scope) =
      if isStrictFunction o.value scope then
        (o.value.bindings form.kind).filterMap Tree.restrictedName? else [] := by
  rw [function, restricted_append, restricted_append, restricted_functionBody, List.append_nil,
    restricted_functionName, restricted_parameters, restricted_binding, strict_functionScope,
    Tree.bindings_of_form, List.filterMap_append]
  cases isStrictFunction o.value scope <;> rfl

/-- **The rule of a node reports the restricted names that the node binds**, in strict code:
    the code of the node itself, if it is a function. -/
theorem restricted_ofKind (kind : Kind) :
    restricted (ofKind kind o scope) =
      if scope.strict || (Grammar.code? o.value kind).any Prologue.usesStrict then
        (o.value.bindings kind).filterMap Tree.restrictedName? else [] := by
  cases kind with
  | functionExpression => exact restricted_function .expression
  | functionDeclaration => exact restricted_function .declaration
  | assignmentExpression =>
    rw [ofKind, assignmentExpression, operation]
    simp only [restricted_append, restricted_operator, restricted_required, restricted_binding]
    simp [Grammar.code?, Tree.bindings]
  | updateExpression =>
    rw [ofKind, restricted_updateExpression, restricted_binding]
    simp [Grammar.code?, Tree.bindings]
  | forInStatement =>
    rw [ofKind, forInStatement, loopBody]
    simp only [restricted_append, restricted_required, restricted_binding]
    simp [Grammar.code?, Tree.bindings]
  | catchClause =>
    rw [ofKind, catchClause]
    simp only [restricted_append, restricted_required, restricted_binding]
    simp [Grammar.code?, Tree.bindings]
  | variableDeclarator =>
    rw [ofKind, variableDeclarator]
    simp only [restricted_append, restricted_required, restricted_optional, restricted_binding]
    simp [Grammar.code?, Tree.bindings]
  | _ =>
    -- a node of any other kind binds nothing
    rw [(charges_ofKind _).restricted_eq_nil fun _ => rfl]
    simp [Tree.bindings]

end Rule

/-! ## What a visited node is charged with -/

theorem UnaryOperator.ofToken?_eq_delete_iff {token : String} :
    ofToken? token = some .delete ↔ token = "delete" := by
  constructor
  · intro h
    have htoken := List.find?_some h
    exact (beq_iff_eq.1 htoken).symm
  · rintro rfl
    rfl

theorem Rule.deletesIdentifier_iff {t : Tree} :
    deletesIdentifier t = true ↔ t.get? "operator" = some (.string "delete") ∧
      ∃ argument, t.child? "argument" = some argument ∧ argument.kind? = some .identifier := by
  have hoperator : (t.get? "operator" >>= Tree.string? >>= UnaryOperator.ofToken?) = some .delete ↔
      t.get? "operator" = some (.string "delete") := by
    cases hget : t.get? "operator" with
    | none => simp
    | some value => cases value <;> simp [Tree.string?, UnaryOperator.ofToken?_eq_delete_iff]
  have hargument : (t.child? "argument" >>= Tree.kind?) = some .identifier ↔
      ∃ argument, t.child? "argument" = some argument ∧ argument.kind? = some .identifier :=
    Option.bind_eq_some_iff
  rw [deletesIdentifier, Bool.and_eq_true, beq_iff_eq, beq_iff_eq, hoperator, hargument]

namespace Tree.Visits

variable {strict : Bool} {t : Tree} {v : Visit} {kind : Kind}

/-- Every fault that a node is charged with is about its kind. -/
theorem mayCharge_of_mem_chargedAt (h : t.Visits strict v)
    (hkind : v.occurrence.value.kind? = some kind) {f : Fault}
    (hf : f ∈ t.chargedAt strict v.trail) : f.mayCharge kind = true := by
  rw [chargedAt_of_visits h, ScriptTree.chargedAt] at hf
  obtain ⟨w, hw, hfault⟩ := List.mem_filterMap.1 hf
  split at hfault
  · cases hfault
    exact Visit.mayCharge_of_mem_own hkind hw
  · cases hfault

theorem mem_strictWith_iff (h : t.Visits strict v)
    (hkind : v.occurrence.value.kind? = some .withStatement) :
    .strictWith ∈ t.chargedAt strict v.trail ↔ v.scope.strict = true := by
  have hcount : (t.chargedAt strict v.trail).count .strictWith =
      if v.scope.strict then 1 else 0 := by
    refine h.count_chargedAt hkind (by simp) (by simp) (by simp) []
      (Steps.required v.occurrence "object" .expression v.scope ++
        Steps.required v.occurrence "body" .statement v.scope) ?_
      (Steps.not_mem_faults_location rfl) List.not_mem_nil ?_
    · rw [Rule.ofKind, Rule.withStatement, List.nil_append, List.append_assoc]
    · rw [Steps.faults_append, List.mem_append, not_or]
      exact ⟨Steps.not_mem_faults_required rfl, Steps.not_mem_faults_required rfl⟩
  rw [← List.count_pos_iff, hcount]
  cases v.scope.strict <;> simp

theorem mem_strictDelete_iff (h : t.Visits strict v)
    (hkind : v.occurrence.value.kind? = some .unaryExpression) :
    .strictDelete ∈ t.chargedAt strict v.trail ↔
      v.scope.strict = true ∧ Rule.deletesIdentifier v.occurrence.value = true := by
  have hcount : (t.chargedAt strict v.trail).count .strictDelete =
      if v.scope.strict && Rule.deletesIdentifier v.occurrence.value then 1 else 0 := by
    refine h.count_chargedAt hkind (by simp) (by simp) (by simp)
      (Steps.operator v.occurrence .unary ++
        Steps.required v.occurrence "argument" .expression v.scope) [] ?_
      (Steps.not_mem_faults_location rfl) ?_ List.not_mem_nil
    · rw [Rule.ofKind, Rule.unaryExpression, List.append_nil]
    · rw [Steps.faults_append, List.mem_append, not_or]
      refine ⟨fun hmem => ?_, Steps.not_mem_faults_required rfl⟩
      obtain ⟨found, hfound⟩ := Steps.faults_operator hmem
      cases hfound
  rw [← List.count_pos_iff, hcount, ← Bool.and_eq_true]
  cases v.scope.strict && Rule.deletesIdentifier v.occurrence.value <;> simp

theorem mem_reservedWord_iff {word : String} (h : t.Visits strict v)
    (hname : v.occurrence.value.identifierName? = some word)
    (hword : Name.isStrictOnly word = true) :
    .reservedWord word ∈ t.chargedAt strict v.trail ↔ v.scope.strict = true := by
  obtain ⟨hkind, hvalue⟩ := identifierName?_eq_some_iff.1 hname
  have hchild : v.occurrence.value.child? "name" = some (.string word) :=
    child?_eq_some_iff.2 ⟨hvalue, nofun⟩
  have hlocation : .reservedWord word ∉ Steps.faults (Steps.location v.occurrence) :=
    Steps.not_mem_faults_location rfl
  rw [h.chargedAt_eq hkind (by simp) (by simp) (by simp), List.mem_append, or_iff_right hlocation,
    Rule.ofKind, Rule.identifier, Steps.faults_toList, hchild, Identifier.fault?,
    Name.isName_of_isStrictOnly hword, Name.isReserved_of_isStrictOnly hword]
  cases v.scope.strict <;> simp

/-- A node is charged for the restricted names that it binds iff it is in strict code, or is
    a function that makes its own code strict. -/
theorem restricted_chargedAt (h : t.Visits strict v)
    (hkind : v.occurrence.value.kind? = some kind) :
    (t.chargedAt strict v.trail).filterMap Fault.restricted? =
      if v.scope.strict || (Grammar.code? v.occurrence.value kind).any Prologue.usesStrict then
        (v.occurrence.value.bindings kind).filterMap restrictedName? else [] := by
  by_cases hbinds : ∀ name, (Fault.restrictedName name).mayCharge kind = false
  · have hnone : v.occurrence.value.bindings kind = [] := by
      cases kind <;> first | rfl | exact absurd (hbinds "") (by decide)
    rw [hnone, List.filterMap_nil, ite_self]
    refine List.filterMap_eq_nil_iff.2 fun f hf => ?_
    cases f with
    | restrictedName name =>
      have hcharge := h.mayCharge_of_mem_chargedAt hkind hf
      rw [hbinds name] at hcharge
      cases hcharge
    | _ => rfl
  · have hne : ∀ other : Kind, (∀ name, (Fault.restrictedName name).mayCharge other = false) →
        kind ≠ other := by
      rintro other hother rfl
      exact hbinds hother
    rw [h.chargedAt_eq hkind (hne _ fun _ => rfl) (hne _ fun _ => rfl) (hne _ fun _ => rfl),
      List.filterMap_append]
    show Steps.restricted _ ++ Steps.restricted _ = _
    rw [Steps.restricted_of_charges Steps.charges_location, List.nil_append,
      Rule.restricted_ofKind]

end Tree.Visits

/-- **Strictness is exact.**  A position is strict if its path leads into strict code.  A with
    statement, the deletion of a name and a word that is reserved in strict code only are
    charged iff they are in a strict position.  In a strict position a node is charged once
    for each restricted name that it binds, and a function also if it is strict itself; in
    any other position a node is charged for none. -/
theorem strictness_placed (strict : Bool) (t : Tree) (v : Visit) (hv : t.Visits strict v)
    (kind : Kind) (hkind : v.occurrence.value.kind? = some kind) :
    (kind = .withStatement →
      (.strictWith ∈ t.chargedAt strict v.trail ↔ t.StrictAt strict v.trail)) ∧
    (kind = .unaryExpression →
      (.strictDelete ∈ t.chargedAt strict v.trail ↔ t.StrictAt strict v.trail ∧
        v.occurrence.value.get? "operator" = some (.string "delete") ∧
          ∃ argument, v.occurrence.value.child? "argument" = some argument ∧
            argument.kind? = some .identifier)) ∧
    (∀ word, v.occurrence.value.identifierName? = some word → Name.isStrictOnly word = true →
      (.reservedWord word ∈ t.chargedAt strict v.trail ↔ t.StrictAt strict v.trail)) ∧
    (t.StrictAt strict v.trail ∨ v.occurrence.value.MakesStrict →
      (t.chargedAt strict v.trail).filterMap Fault.restricted? =
        (v.occurrence.value.bindings kind).filterMap Tree.restrictedName?) ∧
    (¬ (t.StrictAt strict v.trail ∨ v.occurrence.value.MakesStrict) →
      (t.chargedAt strict v.trail).filterMap Fault.restricted? = []) := by
  have hstrict : v.scope.strict = true ↔ t.StrictAt strict v.trail := hv.strict_iff
  have hown : (v.scope.strict || (Grammar.code? v.occurrence.value kind).any
      Prologue.usesStrict) = true ↔ t.StrictAt strict v.trail ∨ v.occurrence.value.MakesStrict := by
    rw [Bool.or_eq_true, hstrict, Grammar.any_usesStrict_iff, Tree.makesStrict_iff hkind]
  refine ⟨?_, ?_, ?_, ?_, ?_⟩
  · rintro rfl
    rw [hv.mem_strictWith_iff hkind, hstrict]
  · rintro rfl
    rw [hv.mem_strictDelete_iff hkind, hstrict, Rule.deletesIdentifier_iff]
  · intro word hname hword
    rw [hv.mem_reservedWord_iff hname hword, hstrict]
  · intro h
    rw [hv.restricted_chargedAt hkind, if_pos (hown.2 h)]
  · intro h
    rw [hv.restricted_chargedAt hkind, if_neg fun h' => h (hown.1 h')]

/-- The function `(function eval(a) { "use strict"; with (let) delete a; })`. -/
def Tree.strictFunction : Tree :=
  let directive := Tree.node .expressionStatement
    [("expression", .node .literal [("value", .string "use strict")])]
  let deletion := Tree.node .unaryExpression
    [("operator", .string "delete"), ("argument", named "a")]
  .node .functionExpression [("id", named "eval"), ("params", .array [named "a"]),
    ("body", .node .blockStatement [("body", .array [directive, .node .withStatement
      [("object", named "let"), ("body", .node .expressionStatement
        [("expression", deletion)])]])])]

/-- The directive covers the name of the function and all of its body. -/
theorem strictFunction_charged : ∃ function statement object deletion,
    Tree.strictFunction.Visits false function ∧ Tree.strictFunction.Visits false statement ∧
    Tree.strictFunction.Visits false object ∧ Tree.strictFunction.Visits false deletion ∧
    (Tree.strictFunction.chargedAt false function.trail).filterMap Fault.restricted? = ["eval"] ∧
    .strictWith ∈ Tree.strictFunction.chargedAt false statement.trail ∧
    .reservedWord "let" ∈ Tree.strictFunction.chargedAt false object.trail ∧
    .strictDelete ∈ Tree.strictFunction.chargedAt false deletion.trail := by
  have hfunction : Tree.strictFunction.Visits false (.root false Tree.strictFunction) := .refl
  have hstatement : Tree.strictFunction.Visits false _ :=
    Visit.leads_of_follow (show Visit.follow _ [2, 1] = some _ from rfl)
  have hobject : Tree.strictFunction.Visits false _ :=
    Visit.leads_of_follow (show Visit.follow _ [2, 1, 0] = some _ from rfl)
  have hdeletion : Tree.strictFunction.Visits false _ :=
    Visit.leads_of_follow (show Visit.follow _ [2, 1, 1, 0] = some _ from rfl)
  refine ⟨_, _, _, _, hfunction, hstatement, hobject, hdeletion, ?_, ?_, ?_, ?_⟩
  · have hkind : Tree.strictFunction.kind? = some .functionExpression := rfl
    have hstrict : Tree.strictFunction.MakesStrict :=
      (Tree.makesStrict_iff hkind).2 ⟨_, rfl, Prologue.usesStrict_iff.1 rfl⟩
    rw [(strictness_placed _ _ _ hfunction _ rfl).2.2.2.1 (Or.inr hstrict)]
    rfl
  · exact ((strictness_placed _ _ _ hstatement _ rfl).1 rfl).2 (hstatement.strict_iff.1 rfl)
  · exact ((strictness_placed _ _ _ hobject _ rfl).2.2.1 "let" rfl rfl).2
      (hobject.strict_iff.1 rfl)
  · exact ((strictness_placed _ _ _ hdeletion _ rfl).2.1 rfl).2
      ⟨hdeletion.strict_iff.1 rfl, rfl, _, rfl, rfl⟩

end ScriptTree
