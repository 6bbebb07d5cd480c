/-
  Parameters of one name.

  * `Tree.IsNamed`: a value is an identifier of a name.
  * `Rule.count_repeated`: a name that occurs in a list is repeated once less often.
  * `Tree.Visits.isStrictFunction_iff`: when the code of a visited function is strict.
  * `duplicateParameters_counted`: a strict function is charged for each parameter that has
    the name of an earlier one.
-/
import Mathlib.Data.List.Count
import ScriptTree.Proofs.StrictFaults

namespace ScriptTree

namespace Tree

/-- A value is an identifier of a name. -/
def IsNamed (name : String) (t : Tree) : Prop :=
  t.kind? = some .identifier ∧ t.get? "name" = some (.string name)

instance (name : String) (t : Tree) : Decidable (t.IsNamed name) :=
  decidable_of_iff (t.identifierName? = some name) identifierName?_eq_some_iff

theorem count_identifierNames (name : String) (values : List Tree) :
    (values.filterMap identifierName?).count name = values.countP (IsNamed name ·) := by
  rw [List.count_filterMap]
  refine List.countP_congr fun value _ => ?_
  rw [beq_iff_eq, decide_eq_true_iff, IsNamed, identifierName?_eq_some_iff]

end Tree

namespace Rule

open Steps

variable {o : Occurrence} {scope : Scope} {params : List Tree}

/-- A name that did not occur before is repeated once less often than it occurs; one that did
    is repeated every time. -/
theorem count_repeated (before names : List String) (name : String) :
    (repeated before names).count name = names.count name - if name ∈ before then 0 else 1 := by
  induction names generalizing before with
  | nil => simp [repeated]
  | cons first rest ih =>
    rw [repeated]
    by_cases hbefore : first ∈ before
    · rw [if_pos (List.contains_iff_mem.2 hbefore), List.count_cons, List.count_cons, ih]
      by_cases hname : first = name
      · subst hname
        simp [hbefore]
      · simp [hname]
    · rw [if_neg (by simpa using hbefore), List.count_cons, ih]
      by_cases hname : first = name
      · subst hname
        simp [hbefore]
      · simp [hname, Ne.symm hname]

theorem faults_repeated (names : List String) :
    faults (names.flatMap fun name => fault o (.duplicateParameter name)) =
      names.map .duplicateParameter := by
  rw [faults_flatMap, List.map_eq_flatMap]
  rfl

/-- The parameters of strict code are charged for the names that are repeated. -/
theorem count_parameters (hparams : o.value.child? "params" = some (.array params))
    (name : String) :
    (faults (parameters o scope)).count (.duplicateParameter name) =
      if scope.strict then params.countP (Tree.IsNamed name ·) - 1 else 0 := by
  have hother : Charges .catchClause (elements o "params" .expression false scope params ++
      params.flatMap fun param => binding o scope (some param)) :=
    charges_append.2 ⟨charges_elements, charges_flatMap fun _ _ => charges_binding fun _ => rfl⟩
  have hinjective : Function.Injective Fault.duplicateParameter := fun _ _ h => by
    cases h
    rfl
  simp only [parameters, withList, hparams, Tree.elements?]
  rw [faults_append, List.count_append, List.count_eq_zero.2 (hother.not_mem_faults rfl),
    Nat.zero_add]
  split
  · rw [faults_repeated, List.count_map_of_injective _ _ hinjective, count_repeated,
      Tree.count_identifierNames]
    simp
  · rfl

theorem count_function (form : FunctionForm)
    (hparams : o.value.child? "params" = some (.array params)) (name : String) :
    (faults (function form o scope)).count (.duplicateParameter name) =
      if isStrictFunction o.value scope then params.countP (Tree.IsNamed name ·) - 1 else 0 := by
  have hname : Charges .catchClause (functionName form o (functionScope o.value scope)) :=
    charges_functionName form fun _ => rfl
  have hbody : Charges .catchClause
      (functionBody o scope ((functionScope o.value scope).enter form.bodyMove)) :=
    charges_functionBody
  rw [function, faults_append, faults_append, List.count_append, List.count_append,
    List.count_eq_zero.2 (hname.not_mem_faults rfl),
    List.count_eq_zero.2 (hbody.not_mem_faults rfl), count_parameters hparams,
    strict_functionScope, Nat.zero_add, Nat.add_zero]

end Rule

namespace Tree.Visits

variable {strict : Bool} {t : Tree} {v : Visit} (h : t.Visits strict v)
  {form : Rule.FunctionForm} (hkind : v.occurrence.value.kind? = some form.kind)
include h hkind

/-- The code of a visited function is strict iff the function is in a strict position or
    makes its code strict itself. -/
theorem isStrictFunction_iff :
    Rule.isStrictFunction v.occurrence.value v.scope = true ↔
      t.StrictAt strict v.trail ∨ v.occurrence.value.MakesStrict := by
  rw [Rule.isStrictFunction, Bool.or_eq_true, h.strict_iff, Grammar.any_usesStrict_iff,
    makesStrict_iff hkind, Grammar.code?_of_form]

theorem count_duplicateParameter {params : List Tree}
    (hparams : v.occurrence.value.get? "params" = some (.array params)) (name : String) :
    (t.chargedAt strict v.trail).count (.duplicateParameter name) =
      if Rule.isStrictFunction v.occurrence.value v.scope then
        params.countP (IsNamed name ·) - 1 else 0 := by
  have hrule : Rule.ofKind form.kind v.occurrence v.scope =
      Rule.function form v.occurrence v.scope := by
    cases form <;> rfl
  have hne : form.kind ≠ .objectExpression ∧ form.kind ≠ .memberExpression ∧
      form.kind ≠ .blockStatement := by
    cases form <;> decide
  have hlocation : .duplicateParameter name ∉ Steps.faults (Steps.location v.occurrence) :=
    Steps.not_mem_faults_location rfl
  have hchild : v.occurrence.value.child? "params" = some (.array params) :=
    child?_eq_some_iff.2 ⟨hparams, by simp⟩
  rw [h.chargedAt_eq hkind hne.1 hne.2.1 hne.2.2, hrule, List.count_append,
    List.count_eq_zero.2 hlocation, Nat.zero_add, Rule.count_function form hchild]

end Tree.Visits

/-- **Parameters of one name are counted.**  A visited function that has a list of parameters,
    and that is in a strict position or makes its code strict itself, is charged for a name
    once less often than parameters have it, and not at all if none has it.  In other code it
    is charged for no name. -/
theorem duplicateParameters_counted (strict : Bool) (t : Tree) (v : Visit)
    (hv : t.Visits strict v) (form : Rule.FunctionForm)
    (hkind : v.occurrence.value.kind? = some form.kind) (params : List Tree)
    (hparams : v.occurrence.value.get? "params" = some (.array params)) :
    (t.StrictAt strict v.trail ∨ v.occurrence.value.MakesStrict → ∀ name,
      (t.chargedAt strict v.trail).count (.duplicateParameter name) =
        params.countP (Tree.IsNamed name ·) - 1) ∧
    (¬ (t.StrictAt strict v.trail ∨ v.occurrence.value.MakesStrict) → ∀ name,
      .duplicateParameter name ∉ t.chargedAt strict v.trail) := by
  have hstrict := hv.isStrictFunction_iff hkind
  constructor
  · intro h name
    rw [hv.count_duplicateParameter hkind hparams, if_pos (hstrict.2 h)]
  · intro h name
    rw [← List.count_eq_zero, hv.count_duplicateParameter hkind hparams,
      if_neg fun h' => h (hstrict.1 h')]

/-- The function `(function (a, b, 0, a, a) { … })`, with `0` for a value that is no node, and
    a body of directives. -/
def Tree.repeatedParameters (directives : List String) : Tree :=
  .node .functionExpression
    [("params", .array [named "a", named "b", .number .zero, named "a", named "a"]),
     ("body", .node .blockStatement [("body", .array (directives.map fun text =>
       .node .expressionStatement [("expression", .node .literal [("value", .string text)])]))])]

/-- With the directive `use strict` the function is charged twice for the name that three of
    its parameters have, and not for the name that one has; without it for neither. -/
theorem repeatedParameters_charged :
    ((Tree.repeatedParameters ["a", "use strict"]).chargedAt false []).count
      (.duplicateParameter "a") = 2 ∧
    ((Tree.repeatedParameters ["a", "use strict"]).chargedAt false []).count
      (.duplicateParameter "b") = 0 ∧
    .duplicateParameter "a" ∉ (Tree.repeatedParameters ["a"]).chargedAt false [] := by
  have hcounted : ∀ directives, _ := fun directives => duplicateParameters_counted false
    (Tree.repeatedParameters directives) (.root false _) .refl .expression rfl _ rfl
  have hstrict : (Tree.repeatedParameters ["a", "use strict"]).MakesStrict :=
    ⟨.functionExpression, _, rfl, rfl, Prologue.usesStrict_iff.1 rfl⟩
  refine ⟨(hcounted _).1 (Or.inr hstrict) "a", (hcounted _).1 (Or.inr hstrict) "b",
    (hcounted ["a"]).2 ?_ "a"⟩
  have hroot : (Tree.repeatedParameters ["a"]).Visits false (.root false _) := .refl
  have hkind : (Tree.repeatedParameters ["a"]).kind? = some Rule.FunctionForm.expression.kind := rfl
  rw [← hroot.isStrictFunction_iff hkind]
  decide

end ScriptTree
