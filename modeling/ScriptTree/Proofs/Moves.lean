/-
  The scope behind a series of moves.

  * `Scope.along`: the scope at the end of a series of moves from the root.
  * `Scope.Move.SinceLast`: a series has a move of one sort since the last of another.
  * `Scope.flag_foldl_iff`: if every move sets a flag, clears it or keeps it, a series of
    moves sets the flag by one of the first since the last of the others.
  * `Tree.Visits.exists_along`: every visit is at the end of a series of moves.
  * `scope_along`: what a scope says is what the moves to it were.
-/
import Mathlib.Data.List.Induction
import ScriptTree.Proofs.Path

namespace ScriptTree

namespace Scope

/-- The scope at the end of a series of moves from the root, the first one first. -/
def along (strict : Bool) (moves : List Move) : Scope := moves.foldl enter (.root strict)

namespace Move

/-- A move leads into the body of a function of either form. -/
def EntersFunction (m : Move) : Prop := m = .declarationBody ∨ m = .expressionBody

/-- A series of moves has one of a sort, and none of another sort behind it. -/
def SinceLast (on off : Move → Prop) (moves : List Move) : Prop :=
  ∃ before m after, moves = before ++ m :: after ∧ on m ∧ ∀ later ∈ after, ¬ off later

variable {on off : Move → Prop} {moves : List Move} {m : Move}

theorem not_sinceLast_nil : ¬ SinceLast on off [] := by
  rintro ⟨before, m, after, hnil, -⟩
  simp at hnil

theorem sinceLast_concat :
    SinceLast on off (moves ++ [m]) ↔ on m ∨ ¬ off m ∧ SinceLast on off moves := by
  constructor
  · rintro ⟨before, found, after, hmoves, hon, hoff⟩
    rcases List.eq_nil_or_concat after with rfl | ⟨rest, last, rfl⟩
    · obtain ⟨-, rfl⟩ := List.append_inj' hmoves rfl |>.imp_right List.singleton_inj.1
      exact Or.inl hon
    · rw [List.concat_eq_append, ← List.cons_append, ← List.append_assoc] at hmoves
      obtain ⟨rfl, hlast⟩ := List.append_inj' hmoves rfl
      obtain rfl := List.singleton_inj.1 hlast
      simp only [List.concat_eq_append, List.forall_mem_append, List.forall_mem_singleton] at hoff
      exact Or.inr ⟨hoff.2, before, found, rest, rfl, hon, hoff.1⟩
  · rintro (hon | ⟨hnot, before, found, after, rfl, hon, hoff⟩)
    · exact ⟨moves, m, [], rfl, hon, by simp⟩
    · refine ⟨before, found, after ++ [m], by simp, hon, ?_⟩
      exact List.forall_mem_append.2 ⟨hoff, List.forall_mem_singleton.2 hnot⟩

/-- If nothing undoes a move, it need only be there. -/
theorem sinceLast_never : SinceLast on (fun _ => False) moves ↔ ∃ m ∈ moves, on m := by
  constructor
  · rintro ⟨before, m, after, rfl, hon, -⟩
    exact ⟨m, by simp, hon⟩
  · rintro ⟨m, hm, hon⟩
    obtain ⟨before, after, rfl⟩ := List.append_of_mem hm
    exact ⟨before, m, after, rfl, hon, fun _ _ h => h⟩

end Move

open Move

/-! ## Flags -/

/-- **A flag says what the moves were.**  If every move sets a flag, clears it or keeps it,
    the flag holds behind a series of moves iff one of them sets it, and none behind that one
    clears it, or it held before and none clears it. -/
theorem flag_foldl_iff (flag : Scope → Bool) {on off : Move → Prop}
    (hstep : ∀ s m, flag (enter s m) = true ↔ on m ∨ ¬ off m ∧ flag s = true)
    (s : Scope) (moves : List Move) :
    flag (moves.foldl enter s) = true ↔
      SinceLast on off moves ∨ (∀ m ∈ moves, ¬ off m) ∧ flag s = true := by
  induction moves using List.reverseRecOn with
  | nil => simp [not_sinceLast_nil]
  | append_singleton moves m ih =>
    rw [List.foldl_concat, hstep, ih, sinceLast_concat, List.forall_mem_append,
      List.forall_mem_singleton]
    tauto

/-- A flag that nothing clears holds behind a series of moves iff one of them sets it, or it
    held before. -/
theorem flag_foldl_iff_of_kept (flag : Scope → Bool) {on : Move → Prop}
    (hstep : ∀ s m, flag (enter s m) = true ↔ on m ∨ flag s = true)
    (s : Scope) (moves : List Move) :
    flag (moves.foldl enter s) = true ↔ (∃ m ∈ moves, on m) ∨ flag s = true := by
  have hnever : ∀ s m, flag (enter s m) = true ↔ on m ∨ ¬ False ∧ flag s = true := by
    simpa using hstep
  rw [flag_foldl_iff flag hnever, sinceLast_never]
  simp

section
variable (s : Scope) (m : Move)

theorem hasLabel_enter (name : String) :
    (s.enter m).hasLabel name = true ↔
      m = .label name ∨ ¬ m.EntersFunction ∧ s.hasLabel name = true := by
  cases m with
  | label other =>
    have hname : name = other ↔ other = name := eq_comm
    simp [enter, hasLabel, EntersFunction, hname]
  | _ => simp [enter, hasLabel, EntersFunction]

theorem inIteration_enter :
    (s.enter m).inIteration = true ↔
      m = .iteration ∨ ¬ m = .declarationBody ∧ s.inIteration = true := by
  cases m <;> simp [enter]

theorem inSwitch_enter :
    (s.enter m).inSwitch = true ↔
      m = .switch ∨ ¬ m = .declarationBody ∧ s.inSwitch = true := by
  cases m <;> simp [enter]

theorem inFunction_enter :
    (s.enter m).inFunction = true ↔ m.EntersFunction ∨ s.inFunction = true := by
  cases m <;> simp [enter, EntersFunction]

theorem strict_enter : (s.enter m).strict = true ↔ m = .strict ∨ s.strict = true := by
  cases m <;> simp [enter]

end

theorem inFunction_foldl_iff (s : Scope) (moves : List Move) :
    (moves.foldl enter s).inFunction = true ↔
      (∃ m ∈ moves, m.EntersFunction) ∨ s.inFunction = true :=
  flag_foldl_iff_of_kept inFunction inFunction_enter s moves

theorem strict_foldl_iff (s : Scope) (moves : List Move) :
    (moves.foldl enter s).strict = true ↔ .strict ∈ moves ∨ s.strict = true := by
  rw [flag_foldl_iff_of_kept Scope.strict strict_enter]
  simp

theorem along_append (strict : Bool) (moves more : List Move) :
    along strict (moves ++ more) = more.foldl enter (along strict moves) :=
  List.foldl_append

end Scope

/-! ## The moves of a traversal -/

/-- A traversal visits every value at the end of a series of moves. -/
theorem Tree.Visits.exists_along {strict : Bool} {t : Tree} {v : Visit}
    (h : t.Visits strict v) : ∃ moves, v.scope = .along strict moves := by
  induction h with
  | refl => exact ⟨[], rfl⟩
  | tail hu hnext ih =>
    obtain ⟨moves, hscope⟩ := ih
    obtain ⟨kind, s, -, -, -, -, hslot⟩ := Visits.exists_way hu hnext
    exact ⟨moves ++ s.moves, by rw [hslot, Slot.scope, hscope, Scope.along_append]⟩

section
open Scope Scope.Move

/-- **A scope is what the moves to it were.**  Behind a series of moves from the root, a label
    is in scope iff the series has it since the last body of a function; the position is in a
    function iff the series has the body of one, in a loop or a switch iff the series has one
    since the last body of a function declaration, and in strict code iff all code is strict
    or the series leads into strict code.  What lies behind a position in a function is in a
    function, and what lies behind one in strict code is strict.  Every value is visited at
    the end of such a series. -/
theorem scope_along (strict : Bool) :
    (∀ moves,
      (∀ name, (along strict moves).hasLabel name = true ↔
        SinceLast (· = .label name) EntersFunction moves) ∧
      ((along strict moves).inFunction = true ↔ ∃ m ∈ moves, m.EntersFunction) ∧
      ((along strict moves).inIteration = true ↔
        SinceLast (· = .iteration) (· = .declarationBody) moves) ∧
      ((along strict moves).inSwitch = true ↔
        SinceLast (· = .switch) (· = .declarationBody) moves) ∧
      ((along strict moves).strict = true ↔ strict = true ∨ .strict ∈ moves) ∧
      ∀ more,
        ((along strict moves).inFunction = true →
          (along strict (moves ++ more)).inFunction = true) ∧
        ((along strict moves).strict = true →
          (along strict (moves ++ more)).strict = true)) ∧
    ∀ (t : Tree) (v : Visit), t.Visits strict v → ∃ moves, v.scope = along strict moves := by
  refine ⟨fun moves => ⟨fun name => ?_, ?_, ?_, ?_, ?_, fun more => ⟨fun h => ?_, fun h => ?_⟩⟩,
    fun t v hv => hv.exists_along⟩
  · simpa [along, root, hasLabel] using
      flag_foldl_iff (hasLabel · name) (hasLabel_enter · · name) (.root strict) moves
  · simpa [along, root] using inFunction_foldl_iff (.root strict) moves
  · simpa [along, root] using
      flag_foldl_iff inIteration inIteration_enter (.root strict) moves
  · simpa [along, root] using
      flag_foldl_iff inSwitch inSwitch_enter (.root strict) moves
  · rw [along, strict_foldl_iff, or_comm]
    rfl
  · rw [along_append, inFunction_foldl_iff]
    exact Or.inr h
  · rw [along_append, strict_foldl_iff]
    exact Or.inr h

end

/-- Into a loop with a label, there into the body of a function expression, and in it into
    strict code with another label. -/
def Scope.Move.nested : List Scope.Move :=
  [.label "outer", .iteration, .expressionBody, .strict, .label "inner"]

/-- The function expression hides the label around it, but not the loop; a declaration
    further in is still in a function and in strict code. -/
theorem scope_along_nested :
    (Scope.along false Scope.Move.nested).hasLabel "inner" = true ∧
    (Scope.along false Scope.Move.nested).inIteration = true ∧
    ¬ Scope.Move.SinceLast (· = .label "outer") Scope.Move.EntersFunction Scope.Move.nested ∧
    (Scope.along false (Scope.Move.nested ++ [.declarationBody])).inFunction = true ∧
    (Scope.along false (Scope.Move.nested ++ [.declarationBody])).strict = true ∧
    ∃ moves, (Visit.root false (.named "a")).scope = .along false moves := by
  obtain ⟨hlabel, -, hiteration, -, -, hbehind⟩ := (scope_along false).1 Scope.Move.nested
  refine ⟨?_, ?_, ?_, (hbehind _).1 rfl, (hbehind _).2 rfl,
    (scope_along false).2 (.named "a") _ .refl⟩
  · exact (hlabel "inner").2
      ⟨[.label "outer", .iteration, .expressionBody, .strict], _, [], rfl, rfl, by simp⟩
  · exact hiteration.2
      ⟨[.label "outer"], _, [.expressionBody, .strict, .label "inner"], rfl, rfl, by simp⟩
  · rw [← hlabel "outer"]
    decide

end ScriptTree
