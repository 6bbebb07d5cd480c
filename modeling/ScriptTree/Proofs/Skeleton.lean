/-
  The `if` and `else` structure of a text, printed and read again.

  * `Skeleton`: how the statements of a text stand in each other, as far as that matters
    for an `else`; `Skeleton.print` writes it down without adding any braces.
  * `Reads`: a text is read, every `else` being given to the nearest `if` that has none.
    A text is read in one way at most (`Reads.unique`).
  * `Skeleton.reads_print_iff`: which skeletons are read as what they were before.
-/
import Mathlib.Tactic.Tauto

namespace ScriptTree

/-- A mark in a text, as far as it matters for an `else`. -/
inductive Mark where
  /-- The start of a part that ends by itself: a block, a switch, an expression. -/
  | opening
  /-- The head of a statement that ends with another one, up to the parts in the head. -/
  | header
  /-- An `if`, up to the parts of its test. -/
  | ifWord
  | elseWord
  /-- The end of the parts behind one of the marks above. -/
  | closing
  deriving DecidableEq, Repr

/-- How the statements of a text stand in each other. -/
inductive Skeleton where
  /-- A part that ends by itself. -/
  | group (parts : List Skeleton)
  /-- A statement that ends with another one. -/
  | under (head : List Skeleton) (body : Skeleton)
  /-- An `if` without an `else`. -/
  | bare (test : List Skeleton) (consequent : Skeleton)
  /-- An `if` with an `else`. -/
  | both (test : List Skeleton) (consequent alternate : Skeleton)

namespace Skeleton

mutual
/-- The text of a skeleton. -/
def print : Skeleton → List Mark
  | group parts => .opening :: printParts parts
  | under head body => .header :: (printParts head ++ body.print)
  | bare test consequent => .ifWord :: (printParts test ++ consequent.print)
  | both test consequent alternate =>
    .ifWord :: (printParts test ++ (consequent.print ++ .elseWord :: alternate.print))
/-- The text of some parts, up to the end of them. -/
def printParts : List Skeleton → List Mark
  | [] => [.closing]
  | part :: parts => part.print ++ printParts parts
end

end Skeleton

mutual
/-- A skeleton is read from a text, and some text is left.  An `if` is read without an
    `else` only if none comes next. -/
inductive Reads : List Mark → Skeleton → List Mark → Prop
  | group {ts parts rest} : ReadsParts ts parts rest → Reads (.opening :: ts) (.group parts) rest
  | under {ts head mid body rest} : ReadsParts ts head mid → Reads mid body rest →
      Reads (.header :: ts) (.under head body) rest
  | bare {ts test mid consequent rest} : ReadsParts ts test mid → Reads mid consequent rest →
      rest.head? ≠ some .elseWord → Reads (.ifWord :: ts) (.bare test consequent) rest
  | both {ts test mid consequent later alternate rest} : ReadsParts ts test mid →
      Reads mid consequent (.elseWord :: later) → Reads later alternate rest →
      Reads (.ifWord :: ts) (.both test consequent alternate) rest
/-- Some parts are read from a text, up to the end of them. -/
inductive ReadsParts : List Mark → List Skeleton → List Mark → Prop
  | nil {rest} : ReadsParts (.closing :: rest) [] rest
  | cons {ts part mid parts rest} : Reads ts part mid → ReadsParts mid parts rest →
      ReadsParts ts (part :: parts) rest
end

namespace Skeleton

mutual
/-- What is read is what stands there. -/
theorem eq_of_reads {rest : List Mark} :
    ∀ (s : Skeleton) {ts : List Mark}, Reads ts s rest → ts = s.print ++ rest
  | group parts, _, .group hparts => by
    rw [eq_of_readsParts parts hparts, print, List.cons_append]
  | under head body, _, .under hhead hbody => by
    rw [eq_of_readsParts head hhead, eq_of_reads body hbody]
    simp [print]
  | bare test consequent, _, .bare htest hconsequent _ => by
    rw [eq_of_readsParts test htest, eq_of_reads consequent hconsequent]
    simp [print]
  | both test consequent alternate, _, .both htest hconsequent halternate => by
    rw [eq_of_readsParts test htest, eq_of_reads consequent hconsequent,
      eq_of_reads alternate halternate]
    simp [print]
theorem eq_of_readsParts {rest : List Mark} :
    ∀ (parts : List Skeleton) {ts : List Mark}, ReadsParts ts parts rest →
      ts = printParts parts ++ rest
  | [], _, .nil => rfl
  | part :: parts, _, .cons hpart hparts => by
    rw [eq_of_reads part hpart, eq_of_readsParts parts hparts, printParts, List.append_assoc]
end

/-! ## One reading -/

mutual
theorem unique_of_reads {rest rest' : List Mark} :
    ∀ (s : Skeleton) {s' : Skeleton} {ts : List Mark}, Reads ts s rest → Reads ts s' rest' →
      s = s' ∧ rest = rest'
  | group parts, _, _, .group hparts, h => by
    cases h with
    | group hparts' =>
      obtain ⟨rfl, rfl⟩ := unique_of_readsParts parts hparts hparts'
      exact ⟨rfl, rfl⟩
  | under head body, _, _, .under hhead hbody, h => by
    cases h with
    | under hhead' hbody' =>
      obtain ⟨rfl, rfl⟩ := unique_of_readsParts head hhead hhead'
      obtain ⟨rfl, rfl⟩ := unique_of_reads body hbody hbody'
      exact ⟨rfl, rfl⟩
  | bare test consequent, _, _, .bare htest hconsequent hnone, h => by
    cases h with
    | bare htest' hconsequent' _ =>
      obtain ⟨rfl, rfl⟩ := unique_of_readsParts test htest htest'
      obtain ⟨rfl, rfl⟩ := unique_of_reads consequent hconsequent hconsequent'
      exact ⟨rfl, rfl⟩
    | both htest' hconsequent' _ =>
      obtain ⟨rfl, rfl⟩ := unique_of_readsParts test htest htest'
      obtain ⟨rfl, rfl⟩ := unique_of_reads consequent hconsequent hconsequent'
      exact absurd rfl hnone
  | both test consequent alternate, _, _, .both htest hconsequent halternate, h => by
    cases h with
    | bare htest' hconsequent' hnone =>
      obtain ⟨rfl, rfl⟩ := unique_of_readsParts test htest htest'
      obtain ⟨rfl, rfl⟩ := unique_of_reads consequent hconsequent hconsequent'
      exact absurd rfl hnone
    | both htest' hconsequent' halternate' =>
      obtain ⟨rfl, rfl⟩ := unique_of_readsParts test htest htest'
      obtain ⟨rfl, hlater⟩ := unique_of_reads consequent hconsequent hconsequent'
      cases hlater
      obtain ⟨rfl, rfl⟩ := unique_of_reads alternate halternate halternate'
      exact ⟨rfl, rfl⟩
theorem unique_of_readsParts {rest rest' : List Mark} :
    ∀ (parts : List Skeleton) {parts' : List Skeleton} {ts : List Mark},
      ReadsParts ts parts rest → ReadsParts ts parts' rest' → parts = parts' ∧ rest = rest'
  | [], _, _, .nil, h => by
    cases h with
    | nil => exact ⟨rfl, rfl⟩
    | cons hpart _ => cases hpart
  | part :: parts, _, _, .cons hpart hparts, h => by
    cases h with
    | nil => cases hpart
    | cons hpart' hparts' =>
      obtain ⟨rfl, rfl⟩ := unique_of_reads part hpart hpart'
      obtain ⟨rfl, rfl⟩ := unique_of_readsParts parts hparts hparts'
      exact ⟨rfl, rfl⟩
end

/-! ## Reading what was printed -/

/-- Whether a skeleton ends in an `if` without an `else`. -/
def endsOpen : Skeleton → Bool
  | group _ => false
  | under _ body => body.endsOpen
  | bare .. => true
  | both _ _ alternate => alternate.endsOpen

mutual
/-- What stands between an `if` and its `else` never ends in an `if` without one. -/
def Faithful : Skeleton → Prop
  | group parts => FaithfulParts parts
  | under head body => FaithfulParts head ∧ body.Faithful
  | bare test consequent => FaithfulParts test ∧ consequent.Faithful
  | both test consequent alternate => FaithfulParts test ∧ consequent.Faithful ∧
    consequent.endsOpen = false ∧ alternate.Faithful
def FaithfulParts : List Skeleton → Prop
  | [] => True
  | part :: parts => part.Faithful ∧ FaithfulParts parts
end

theorem head?_print (s : Skeleton) (ts : List Mark) :
    (s.print ++ ts).head? ≠ some .elseWord := by
  cases s <;> simp [print]

theorem head?_printParts (parts : List Skeleton) (ts : List Mark) :
    (printParts parts ++ ts).head? ≠ some .elseWord := by
  cases parts with
  | nil => simp [printParts]
  | cons part parts =>
    rw [printParts, List.append_assoc]
    exact head?_print _ _

theorem readsParts_cons_iff {ts rest : List Mark} {part : Skeleton} {parts : List Skeleton} :
    ReadsParts ts (part :: parts) rest ↔
      ∃ mid, Reads ts part mid ∧ ReadsParts mid parts rest := by
  constructor
  · rintro (_ | ⟨hpart, hparts⟩)
    exact ⟨_, hpart, hparts⟩
  · rintro ⟨mid, hpart, hparts⟩
    exact .cons hpart hparts

theorem rest_eq_of_reads {s : Skeleton} {ts rest : List Mark} (h : Reads (s.print ++ ts) s rest) :
    rest = ts :=
  (List.append_cancel_left (eq_of_reads s h)).symm

theorem rest_eq_of_readsParts {parts : List Skeleton} {ts rest : List Mark}
    (h : ReadsParts (printParts parts ++ ts) parts rest) : rest = ts :=
  (List.append_cancel_left (eq_of_readsParts parts h)).symm

mutual
/-- **A text is read as what it was iff it is faithful**, and no `else` comes behind an
    `if` without one. -/
theorem reads_print_iff : ∀ (s : Skeleton) (rest : List Mark),
    Reads (s.print ++ rest) s rest ↔
      s.Faithful ∧ (s.endsOpen = true → rest.head? ≠ some .elseWord)
  | group parts, rest => by
    rw [print, Faithful, ← readsParts_print_iff parts rest, endsOpen]
    constructor
    · intro h
      cases h with
      | group hparts => exact ⟨hparts, nofun⟩
    · exact fun h => .group h.1
  | under head body, rest => by
    -- what is left behind the head is known, since what was read is what stood there
    rw [print, Faithful, endsOpen, and_assoc, ← reads_print_iff body rest,
      ← readsParts_print_iff head (body.print ++ rest), List.cons_append, List.append_assoc]
    constructor
    · intro h
      cases h with
      | under hhead hbody =>
        obtain rfl := rest_eq_of_readsParts hhead
        exact ⟨hhead, hbody⟩
    · exact fun h => .under h.1 h.2
  | bare test consequent, rest => by
    have hopen : Reads (consequent.print ++ rest) consequent rest ∧ rest.head? ≠ some .elseWord ↔
        consequent.Faithful ∧ rest.head? ≠ some .elseWord := by
      rw [reads_print_iff consequent rest]
      tauto
    rw [print, Faithful, endsOpen, and_assoc, eq_self, true_imp_iff, ← hopen,
      ← readsParts_print_iff test (consequent.print ++ rest), List.cons_append, List.append_assoc]
    constructor
    · intro h
      cases h with
      | bare htest hconsequent hnone =>
        obtain rfl := rest_eq_of_readsParts htest
        exact ⟨htest, hconsequent, hnone⟩
    · exact fun ⟨htest, hconsequent, hnone⟩ => .bare htest hconsequent hnone
  | both test consequent alternate, rest => by
    have hclosed : Reads (consequent.print ++ .elseWord :: (alternate.print ++ rest)) consequent
        (.elseWord :: (alternate.print ++ rest)) ↔
          consequent.Faithful ∧ consequent.endsOpen = false := by
      rw [reads_print_iff consequent]
      simp
    rw [print, Faithful, endsOpen, ← and_assoc (a := consequent.Faithful), ← hclosed, and_assoc,
      and_assoc, ← reads_print_iff alternate rest,
      ← readsParts_print_iff test (consequent.print ++ .elseWord :: (alternate.print ++ rest))]
    simp only [List.cons_append, List.append_assoc]
    constructor
    · intro h
      cases h with
      | both htest hconsequent halternate =>
        obtain rfl := rest_eq_of_readsParts htest
        obtain ⟨-, rfl⟩ := List.cons.inj (rest_eq_of_reads hconsequent)
        exact ⟨htest, hconsequent, halternate⟩
    · exact fun ⟨htest, hconsequent, halternate⟩ => .both htest hconsequent halternate
theorem readsParts_print_iff : ∀ (parts : List Skeleton) (rest : List Mark),
    ReadsParts (printParts parts ++ rest) parts rest ↔ FaithfulParts parts
  | [], rest => iff_of_true .nil trivial
  | part :: parts, rest => by
    have hpart : Reads (part.print ++ (printParts parts ++ rest)) part (printParts parts ++ rest) ↔
        part.Faithful := by
      rw [reads_print_iff part]
      exact and_iff_left fun _ => head?_printParts parts rest
    rw [FaithfulParts, ← readsParts_print_iff parts rest, ← hpart, printParts, List.append_assoc]
    constructor
    · intro h
      obtain ⟨mid, hpart, hparts⟩ := readsParts_cons_iff.1 h
      obtain rfl := rest_eq_of_reads hpart
      exact ⟨hpart, hparts⟩
    · exact fun h => .cons h.1 h.2
end

/-- A whole text is read as what it was, and as nothing else, iff it is faithful. -/
theorem reads_back_iff {s : Skeleton} :
    (∀ s', Reads s.print s' [] ↔ s' = s) ↔ s.Faithful := by
  have hself : Reads s.print s [] ↔ s.Faithful := by
    have h := reads_print_iff s []
    rw [List.append_nil] at h
    rw [h]
    exact and_iff_left fun _ h => nomatch h
  rw [← hself]
  constructor
  · exact fun h => (h s).2 rfl
  · intro h s'
    constructor
    · exact fun h' => (unique_of_reads s' h' h).1
    · rintro rfl
      exact h

theorem faithfulParts_iff {parts : List Skeleton} :
    FaithfulParts parts ↔ ∀ part ∈ parts, part.Faithful := by
  induction parts with
  | nil => exact iff_of_true trivial fun _ h => nomatch h
  | cons part parts ih => rw [FaithfulParts, ih, List.forall_mem_cons]

end Skeleton

end ScriptTree
