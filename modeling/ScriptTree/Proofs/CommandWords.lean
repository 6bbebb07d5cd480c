/-
  The words of a command.

  * `Invocation.leading`, `Invocation.listed`: the words that may be flags, and the files that
    a list of words names.
  * `read?_check`: a run is over the files that are named, with the flags that are given.
-/
import Mathlib.Data.List.Basic
import ScriptTree.CommandLine.Arguments

namespace ScriptTree

namespace Flag

theorem ofName?_eq_some_iff {s : String} {flag : Flag} : ofName? s = some flag ↔ flag.name = s := by
  constructor
  · intro h
    have hname := List.find?_some h
    exact eq_of_beq hname
  · rintro rfl
    cases flag <;> decide

end Flag

namespace Invocation

/-- The words before the first double hyphen.  Only they may be flags. -/
def leading (words : List String) : List String := words.takeWhile (· != "--")

/-- The files that words name: those before the first double hyphen that are no flags, and all
    behind it. -/
def listed (words : List String) : List String :=
  (leading words).filter (fun word => (Flag.ofName? word).isNone) ++
    (words.dropWhile (· != "--")).tail

theorem leading_cons {word : String} (h : word ≠ "--") (words : List String) :
    leading (word :: words) = word :: leading words :=
  List.takeWhile_cons_of_pos (by simpa using h)

theorem dropWhile_cons {word : String} (h : word ≠ "--") (words : List String) :
    (word :: words).dropWhile (· != "--") = words.dropWhile (· != "--") :=
  List.dropWhile_cons_of_pos (by simpa using h)

theorem eq_of_finish? {a b : Arguments} (h : finish? a = some (.check b)) : b = a := by
  unfold finish? at h
  split at h
  · cases h
  · cases h
    rfl

/-- Words add their files and their flags to what was given before. -/
theorem readFrom?_check {words : List String} {a b : Arguments}
    (h : readFrom? a words = some (.check b)) :
    b.files = a.files ++ listed words ∧
      ∀ flag, b.has flag = true ↔ a.has flag = true ∨ flag.name ∈ leading words := by
  induction words generalizing a with
  | nil =>
    obtain rfl := eq_of_finish? h
    simp [listed, leading]
  | cons word words ih =>
    unfold readFrom? at h
    split at h
    · next hword =>
      obtain rfl := eq_of_finish? h
      simp [listed, leading, hword, Arguments.has]
    next hword =>
    split at h
    · cases h
    cases hflag : Flag.ofName? word with
    | some flag =>
      rw [hflag] at h
      dsimp only at h
      split at h
      · cases h
      obtain ⟨hfiles, hflags⟩ := ih h
      have hname := Flag.ofName?_eq_some_iff.1 hflag
      refine ⟨?_, fun other => ?_⟩
      · rw [hfiles, listed, listed, leading_cons hword, dropWhile_cons hword,
          List.filter_cons_of_neg (by simp [hflag])]
      · have hother : other = flag ↔ other.name = word := by
          rw [← Flag.ofName?_eq_some_iff, hflag, Option.some.injEq, eq_comm]
        rw [hflags, leading_cons hword, List.mem_cons, ← hother, ← or_assoc]
        simp only [Arguments.has, List.contains_cons, Bool.or_eq_true, beq_iff_eq]
        rw [or_comm (a := other = flag)]
    | none =>
      rw [hflag] at h
      dsimp only at h
      split at h
      · cases h
      obtain ⟨hfiles, hflags⟩ := ih h
      refine ⟨?_, fun other => ?_⟩
      · rw [hfiles, listed, listed, leading_cons hword, dropWhile_cons hword,
          List.filter_cons_of_pos (by simp [hflag])]
        simp
      · have hother : other.name ≠ word := by
          intro hname
          cases hflag.symm.trans (Flag.ofName?_eq_some_iff.2 hname)
        rw [hflags, leading_cons hword, List.mem_cons, or_iff_right hother]
        rfl

/-- The files of a run are those that its words name, and a flag is given iff its name is among
    the words that may be flags. -/
theorem read?_check {words : List String} {a : Arguments} (h : read? words = some (.check a)) :
    a.files = listed words ∧ ∀ flag, a.has flag = true ↔ flag.name ∈ leading words := by
  obtain ⟨hfiles, hflags⟩ := readFrom?_check h
  refine ⟨hfiles, fun flag => ?_⟩
  rw [hflags]
  simp [Arguments.has]

end Invocation

end ScriptTree
