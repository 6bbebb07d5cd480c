/-
  Strict code.

  A program or a function makes its own code strict by a directive at the start of its body.
  For a function that covers its name and its parameters as well as its body.

  * `Prologue.Strict`: a body starts with directives, one of which is `use strict`.
  * `Tree.MakesStrict`: a node makes its own code strict.
  * `Tree.StrictAt`: a path leads into strict code, or all code is strict.
  * `Tree.Visits.strict_iff`: the scope of a visit is strict iff its path leads into strict
    code.
-/
import ScriptTree.Proofs.Path

namespace ScriptTree

namespace Prologue

/-- A body starts with directives, one of which is `use strict`. -/
def Strict (body : List Tree) : Prop :=
  ∃ before statement after, body = before ++ statement :: after ∧
    (∀ s ∈ before, ∃ text, directive? s = some text) ∧
    directive? statement = some "use strict"

theorem strict_cons_iff {statement : Tree} {rest : List Tree} :
    Strict (statement :: rest) ↔
      ∃ text, directive? statement = some text ∧ (text = "use strict" ∨ Strict rest) := by
  constructor
  · rintro ⟨before, found, after, hbody, hbefore, hfound⟩
    cases before with
    | nil =>
      obtain ⟨rfl, -⟩ := List.cons.inj hbody
      exact ⟨_, hfound, Or.inl rfl⟩
    | cons first before =>
      obtain ⟨rfl, hrest⟩ := List.cons.inj hbody
      obtain ⟨hfirst, hbefore⟩ := List.forall_mem_cons.1 hbefore
      obtain ⟨text, htext⟩ := hfirst
      exact ⟨text, htext, Or.inr ⟨before, found, after, hrest, hbefore, hfound⟩⟩
  · rintro ⟨text, htext, rfl | ⟨before, found, after, rfl, hbefore, hfound⟩⟩
    · exact ⟨[], statement, rest, rfl, by simp, htext⟩
    · exact ⟨statement :: before, found, after, rfl,
        List.forall_mem_cons.2 ⟨⟨text, htext⟩, hbefore⟩, hfound⟩

theorem usesStrict_iff {body : List Tree} : usesStrict body = true ↔ Strict body := by
  induction body with
  | nil =>
    refine iff_of_false (by simp [usesStrict]) ?_
    rintro ⟨before, statement, after, hbody, -⟩
    simp at hbody
  | cons statement rest ih =>
    rw [strict_cons_iff, usesStrict]
    cases hdirective : directive? statement with
    | none => simp
    | some text => simp [ih]

end Prologue

/-! ## Code of a node -/

namespace Grammar

/-- The body whose directives count for the code of a node. -/
def code? (t : Tree) : Kind → Option (List Tree)
  | .program => t.child? "body" >>= Tree.elements?
  | .functionExpression | .functionDeclaration => Rule.bodyStatements? t
  | _ => none

/-- The fields of a node that hold its own code. -/
def codeFields : Kind → List String
  | .program => ["body"]
  | .functionExpression | .functionDeclaration => ["id", "params", "body"]
  | _ => []

end Grammar

namespace Tree

/-- A node makes its own code strict. -/
def MakesStrict (t : Tree) : Prop :=
  ∃ kind body, t.kind? = some kind ∧ Grammar.code? t kind = some body ∧ Prologue.Strict body

/-- A path ends with the step from a node into its own code, which the node makes strict. -/
def StrictCode (t : Tree) (trail : List Selector) : Prop :=
  ∃ field above node kind, trail = .field field :: above ∧ t.at? above = some node ∧
    node.kind? = some kind ∧ field ∈ Grammar.codeFields kind ∧ node.MakesStrict

/-- A path leads into strict code, or all code is strict. -/
def StrictAt (strict : Bool) (t : Tree) (trail : List Selector) : Prop :=
  strict = true ∨ ∃ start, start <:+ trail ∧ t.StrictCode start

theorem makesStrict_iff {t : Tree} {kind : Kind} (hkind : t.kind? = some kind) :
    t.MakesStrict ↔ ∃ body, Grammar.code? t kind = some body ∧ Prologue.Strict body := by
  constructor
  · rintro ⟨found, body, hfound, hbody⟩
    obtain rfl := Option.some.inj (hkind.symm.trans hfound)
    exact ⟨body, hbody⟩
  · rintro ⟨body, hbody⟩
    exact ⟨kind, body, hkind, hbody⟩

end Tree

/-! ## Strictness behind a step -/

namespace Grammar

variable {t : Tree} {s : Slot} {kind : Kind} {field : String}

/-- The step into a field leads from a node into its own code, which the node makes strict. -/
def EntersStrict (t : Tree) (kind : Kind) (field : String) : Prop :=
  field ∈ codeFields kind ∧ ∃ body, code? t kind = some body ∧ Prologue.Strict body

theorem not_entersStrict (hprogram : kind ≠ .program)
    (hfunction : ∀ form : Rule.FunctionForm, kind ≠ form.kind) : ¬ EntersStrict t kind field := by
  rintro ⟨-, body, hbody, -⟩
  cases kind with
  | program => exact hprogram rfl
  | functionExpression => exact hfunction .expression rfl
  | functionDeclaration => exact hfunction .declaration rfl
  | _ => cases hbody

theorem any_usesStrict_iff {body : Option (List Tree)} :
    body.any Prologue.usesStrict = true ↔ ∃ code, body = some code ∧ Prologue.Strict code := by
  simp only [Option.any_eq_true, Prologue.usesStrict_iff]

theorem code?_of_form (form : Rule.FunctionForm) :
    code? t form.kind = Rule.bodyStatements? t := by
  cases form <;> rfl

theorem mem_codeFields_of_form (form : Rule.FunctionForm)
    (h : field = "id" ∨ field = "params" ∨ field = "body") : field ∈ codeFields form.kind := by
  cases form <;> simpa [codeFields, Rule.FunctionForm.kind] using h

theorem ne_value_of_mem_codeFields (h : field ∈ codeFields kind) : field ≠ "value" := by
  rintro rfl
  cases kind <;> simp [codeFields] at h

/-- A body that is no block holds no directives. -/
theorem bodyStatements?_eq_none (h : t.child? "body" >>= Tree.kind? ≠ some .blockStatement) :
    Rule.bodyStatements? t = none := by
  unfold Rule.bodyStatements?
  cases hbody : t.child? "body" with
  | none => rfl
  | some body =>
    have hkind : body.kind? ≠ some .blockStatement := by
      rw [hbody] at h
      exact h
    show (if body.kind? = some .blockStatement then _ else none) = none
    rw [if_neg hkind]

/-- A step that does not lead into strict code keeps the scope as strict as it was. -/
theorem strict_keep {outer inner : Scope} (hnot : ¬ EntersStrict t kind field)
    (hkeep : inner.strict = outer.strict) :
    inner.strict = true ↔ EntersStrict t kind field ∨ outer.strict = true := by
  rw [hkeep, or_iff_right hnot]

/-- A step into the code of a node makes the scope strict if the directives of the node do. -/
theorem strict_enter {outer inner : Scope} (hfield : field ∈ codeFields kind)
    (hinner : inner.strict = (outer.strict || (code? t kind).any Prologue.usesStrict)) :
    inner.strict = true ↔ EntersStrict t kind field ∨ outer.strict = true := by
  rw [hinner, Bool.or_eq_true, any_usesStrict_iff, EntersStrict, and_iff_right hfield, or_comm]

/-- **A scope is strict behind a step iff it was before or the step leads into strict
    code.** -/
theorem Way.strict_iff (h : Way t s kind) (outer : Scope) :
    (s.scope outer).strict = true ↔ EntersStrict t kind s.field ∨ outer.strict = true := by
  cases h with
  | loop hkind _ _ hmoves =>
    refine strict_keep (not_entersStrict ?_ ?_) ?_
    · rintro rfl
      cases hkind
    · rintro form rfl
      cases form <;> cases hkind
    · rw [Slot.scope, hmoves]
      rfl
  | switch _ _ hmoves =>
    refine strict_keep (not_entersStrict (by simp) ?_) ?_
    · rintro (_ | _) <;> simp [Rule.FunctionForm.kind]
    · rw [Slot.scope, hmoves]
      rfl
  | label _ _ hmoves =>
    refine strict_keep (not_entersStrict (by simp) ?_) ?_
    · rintro (_ | _) <;> simp [Rule.FunctionForm.kind]
    · rw [Slot.scope, hmoves, enter_labelMoves]
  | program hfield _ hmoves =>
    refine strict_enter (by simp [codeFields, hfield]) ?_
    rw [Slot.scope, hmoves, enter_strictMoves]
    rfl
  | ownCode form hfield _ hmoves =>
    refine strict_enter (mem_codeFields_of_form form ?_) ?_
    · tauto
    · rw [Slot.scope, hmoves, enter_strictMoves, code?_of_form]
  | functionBody form hfield _ _ _ hmoves =>
    refine strict_enter (mem_codeFields_of_form form ?_) ?_
    · exact Or.inr (Or.inr hfield)
    · rw [Slot.scope, hmoves, List.foldl_append, enter_strictMoves, code?_of_form]
      cases form <;> rfl
  | plain _ hmoves hplain =>
    have hkeep : (s.scope outer).strict = outer.strict := by
      rw [Slot.scope, hmoves]
      rfl
    refine strict_keep ?_ hkeep
    rintro ⟨hfield, body, hbody, hstrict⟩
    -- the code of a function is in a block, and what is not reached by a move is no block
    have hnone : ∀ form : Rule.FunctionForm, kind ≠ form.kind := by
      rintro form rfl
      rw [code?_of_form, bodyStatements?_eq_none (hplain.function form rfl).2] at hbody
      cases hbody
    exact not_entersStrict hplain.program hnone ⟨hfield, body, hbody, hstrict⟩

end Grammar

/-! ## Strictness at a visit -/

namespace Tree

variable {strict : Bool} {t value : Tree} {v : Visit} {kind : Kind} {field : String}
  {above : List Selector}

theorem strictCode_cons_iff (hat : t.at? above = some value) (hkind : value.kind? = some kind) :
    t.StrictCode (.field field :: above) ↔ Grammar.EntersStrict value kind field := by
  constructor
  · rintro ⟨field', above', node, kind', htrail, hat', hkind', hfield, hstrict⟩
    obtain ⟨hname, rfl⟩ := List.cons.inj htrail
    obtain rfl := Selector.field.inj hname
    obtain rfl := Option.some.inj (hat.symm.trans hat')
    obtain rfl := Option.some.inj (hkind.symm.trans hkind')
    exact ⟨hfield, (makesStrict_iff hkind).1 hstrict⟩
  · rintro ⟨hfield, hbody⟩
    exact ⟨field, above, value, kind, rfl, hat, hkind, hfield, (makesStrict_iff hkind).2 hbody⟩

/-- If all code is strict, so is the scope of every visit. -/
theorem Visits.strict_of_root (h : t.Visits true v) : v.scope.strict = true := by
  induction h with
  | refl => rfl
  | tail hu hnext ih =>
    obtain ⟨kind, s, -, hway, -, -, hscope⟩ := Visits.exists_way hu hnext
    rw [hscope]
    exact (hway.strict_iff _).2 (Or.inr ih)

/-- **The scope of a visit is strict iff its path leads into strict code, or all code is
    strict.** -/
theorem Visits.strict_iff (h : t.Visits strict v) :
    v.scope.strict = true ↔ t.StrictAt strict v.trail := by
  cases strict with
  | true => exact iff_of_true h.strict_of_root (Or.inl rfl)
  | false =>
    have hflag : v.scope.strict = true ↔ Since t.StrictCode (fun _ => False) v.trail := by
      let flag : Scope → Bool := fun scope => scope.strict
      have hroot : flag (.root false) = false := rfl
      show flag v.scope = true ↔ _
      refine flag_iff ?_ hroot ?_ h
      · rintro trail (⟨field, above, _, kind, rfl, -, -, hfield, -⟩ | hnever)
        · exact ⟨field, above, rfl, Grammar.ne_value_of_mem_codeFields hfield⟩
        · exact hnever.elim
      · intro kind s above value outer hat hkind hway
        rw [strictCode_cons_iff hat hkind, and_iff_right not_false]
        exact hway.strict_iff outer
    rw [hflag, since_never, StrictAt, or_iff_right Bool.false_ne_true]

end Tree

end ScriptTree
