/-
  The course of a run, file by file.

  * `Files.Holds`, `Surroundings.Complains`: a file holds a tree, or there is something to say
    about it (`holds_or_complains`), one thing (`Complains.unique`) and not both
    (`Complains.not_holds`).
  * `Surroundings.exists_split`: files hold trees up to the first one that does not.
  * `runFrom_append`: a run goes on behind files that hold trees; `run_of_not_holds`,
    `run_of_holds`: the first file that holds no tree ends it, and otherwise it ends with what is
    said about the trees; `events_run`: what is logged.
  * `length_diagnose`: what is said about a tree.
-/
import Mathlib.Data.List.Basic
import ScriptTree.CommandLine.Run
import ScriptTree.Proofs.Reporter

namespace ScriptTree

/-! ## Files -/

namespace Files

variable {files : Files} {file message : String} {t : Tree}

/-- A file can be read, its bytes are a text, and the text holds exactly one document, which is
    that of a tree. -/
def Holds (files : Files) (file : String) (t : Tree) : Prop :=
  ∃ bytes text, files file = .ok bytes ∧ String.fromUTF8? bytes = some text ∧
    Tree.read? text = some t

theorem Holds.unique {t' : Tree} (h : files.Holds file t) (h' : files.Holds file t') : t = t' := by
  obtain ⟨bytes, text, hbytes, htext, htree⟩ := h
  obtain ⟨bytes', text', hbytes', htext', htree'⟩ := h'
  obtain rfl := Except.ok.inj (hbytes.symm.trans hbytes')
  obtain rfl := Option.some.inj (htext.symm.trans htext')
  exact Option.some.inj (htree.symm.trans htree')

theorem fromUTF8?_toUTF8 (text : String) : String.fromUTF8? text.toUTF8 = some text :=
  dif_pos text.isValidUTF8

/-- A file that is written as a text holds the tree of the text. -/
theorem holds_of_text {text : String} (hbytes : files file = .ok text.toUTF8)
    (htree : Tree.read? text = some t) : files.Holds file t :=
  ⟨text.toUTF8, text, hbytes, fromUTF8?_toUTF8 text, htree⟩

theorem text_of_error {failure : ReadFailure} (h : files file = .error failure) :
    files.text file = .error failure := by
  rw [text, h]
  rfl

theorem text_of_ok {bytes : ByteArray} (h : files file = .ok bytes) :
    files.text file =
      match String.fromUTF8? bytes with
      | some text => .ok text
      | none => .error .invalidText := by
  rw [text, h]
  rfl

end Files

/-- A file holds no tree, and a message says why. -/
inductive Surroundings.Complains (s : Surroundings) (file : String) : String → Prop
  | unreadable {failure : ReadFailure} : s.files file = .error failure →
      Complains s file ("Error reading " ++ file ++ ": " ++ failure.message)
  | invalidText {bytes : ByteArray} : s.files file = .ok bytes → String.fromUTF8? bytes = none →
      Complains s file ("Error reading " ++ file ++ ": " ++ "stream did not contain valid UTF-8")
  | unparsable {bytes : ByteArray} {text : String} : s.files file = .ok bytes →
      String.fromUTF8? bytes = some text → Tree.read? text = none →
      Complains s file ("Error parsing " ++ file ++ ": " ++ s.refusal text)

namespace Surroundings

variable {s : Surroundings} {file message : String} {t : Tree}

theorem holds_or_complains (s : Surroundings) (file : String) :
    (∃ t, s.files.Holds file t) ∨ ∃ message, s.Complains file message := by
  cases hbytes : s.files file with
  | error failure => exact Or.inr ⟨_, .unreadable hbytes⟩
  | ok bytes =>
    cases htext : String.fromUTF8? bytes with
    | none => exact Or.inr ⟨_, .invalidText hbytes htext⟩
    | some text =>
      cases htree : Tree.read? text with
      | none => exact Or.inr ⟨_, .unparsable hbytes htext htree⟩
      | some t => exact Or.inl ⟨t, bytes, text, hbytes, htext, htree⟩

theorem tree_of_holds (h : s.files.Holds file t) : s.tree file = .ok t := by
  obtain ⟨bytes, text, hbytes, htext, htree⟩ := h
  simp only [tree, Files.text_of_ok hbytes, htext, htree]

theorem tree_of_complains (h : s.Complains file message) :
    ∃ outcome, s.tree file = .error outcome ∧ outcome.exitCode = 1 ∧
      ∀ color, outcome.message? color = some message := by
  cases h with
  | @unreadable failure hbytes =>
    refine ⟨.unreadable file failure, ?_, rfl, fun _ => rfl⟩
    simp only [tree, Files.text_of_error hbytes]
  | invalidText hbytes htext =>
    refine ⟨.unreadable file .invalidText, ?_, rfl, fun _ => rfl⟩
    simp only [tree, Files.text_of_ok hbytes, htext]
  | @unparsable _ text hbytes htext htree =>
    refine ⟨.unparsable file (s.refusal text), ?_, rfl, fun _ => rfl⟩
    simp only [tree, Files.text_of_ok hbytes, htext, htree]

/-- There is something to say about a file only if it holds no tree. -/
theorem Complains.not_holds (h : s.Complains file message) : ¬ ∃ t, s.files.Holds file t := by
  rintro ⟨t, ht⟩
  obtain ⟨outcome, htree, -⟩ := tree_of_complains h
  rw [tree_of_holds ht] at htree
  cases htree

/-- There is one thing to say about a file. -/
theorem Complains.unique {message' : String} (h : s.Complains file message)
    (h' : s.Complains file message') : message = message' := by
  obtain ⟨outcome, htree, -, hmessage⟩ := tree_of_complains h
  obtain ⟨outcome', htree', -, hmessage'⟩ := tree_of_complains h'
  obtain rfl : outcome = outcome' := Except.error.inj (htree.symm.trans htree')
  exact Option.some.inj ((hmessage false).symm.trans (hmessage' false))

/-- Of files that do not all hold a tree, one is the first. -/
theorem exists_first_complaint {names : List String}
    (h : ∃ file ∈ names, ¬ ∃ t, s.files.Holds file t) :
    ∃ before file after message, names = before ++ file :: after ∧
      (∀ f ∈ before, ∃ t, s.files.Holds f t) ∧ s.Complains file message := by
  induction names with
  | nil =>
    obtain ⟨file, hfile, -⟩ := h
    cases hfile
  | cons first rest ih =>
    rcases s.holds_or_complains first with hfirst | ⟨message, hmessage⟩
    · obtain ⟨file, hfile, hnone⟩ := h
      have hrest : file ∈ rest := (List.mem_cons.1 hfile).resolve_left fun h => hnone (h ▸ hfirst)
      obtain ⟨before, file, after, message, rfl, hbefore, hmessage⟩ := ih ⟨file, hrest, hnone⟩
      exact ⟨first :: before, file, after, message, rfl,
        List.forall_mem_cons.2 ⟨hfirst, hbefore⟩, hmessage⟩
    · exact ⟨[], first, rest, message, rfl, List.forall_mem_nil _, hmessage⟩

end Surroundings

/-- Files that all hold a tree hold a family of them. -/
theorem Files.exists_trees {files : Files} {names : List String}
    (h : ∀ file ∈ names, ∃ t, files.Holds file t) :
    ∃ trees : String → Tree, ∀ file ∈ names, files.Holds file (trees file) := by
  have htree : ∀ file, ∃ t, file ∈ names → files.Holds file t := by
    intro file
    by_cases hfile : file ∈ names
    · obtain ⟨t, ht⟩ := h file hfile
      exact ⟨t, fun _ => ht⟩
    · exact ⟨.null, fun hmem => absurd hmem hfile⟩
  choose trees htrees using htree
  exact ⟨trees, htrees⟩

/-- One file is the first that holds no tree. -/
theorem Surroundings.first_unique {s : Surroundings} {before before' after after' : List String}
    {file file' : String} (hnames : before ++ file :: after = before' ++ file' :: after')
    (hbefore : ∀ f ∈ before, ∃ t, s.files.Holds f t) (hfile : ¬ ∃ t, s.files.Holds file t)
    (hbefore' : ∀ f ∈ before', ∃ t, s.files.Holds f t) (hfile' : ¬ ∃ t, s.files.Holds file' t) :
    file = file' := by
  rcases List.append_eq_append_iff.1 hnames with ⟨mid, rfl, h⟩ | ⟨mid, rfl, h⟩
  · cases mid with
    | nil => exact (List.cons.inj h).1
    | cons first mid =>
      obtain ⟨rfl, -⟩ := List.cons.inj h
      exact absurd (hbefore' file (List.mem_append_right _ List.mem_cons_self)) hfile
  · cases mid with
    | nil => exact (List.cons.inj h).1.symm
    | cons first mid =>
      obtain ⟨rfl, -⟩ := List.cons.inj h
      exact absurd (hbefore file' (List.mem_append_right _ List.mem_cons_self)) hfile'

/-- Files hold trees up to the first one that does not. -/
theorem Surroundings.exists_split (s : Surroundings) (names : List String) :
    ∃ (trees : String → Tree) (before after : List String), names = before ++ after ∧
      (∀ file ∈ before, s.files.Holds file (trees file)) ∧
      ∀ file ∈ after.head?, ¬ ∃ t, s.files.Holds file t := by
  by_cases h : ∀ file ∈ names, ∃ t, s.files.Holds file t
  · obtain ⟨trees, htrees⟩ := Files.exists_trees h
    exact ⟨trees, names, [], (List.append_nil names).symm, htrees, fun _ h => by cases h⟩
  · have hnone : ∃ file ∈ names, ¬ ∃ t, s.files.Holds file t := by
      simpa only [not_forall, exists_prop] using h
    obtain ⟨before, file, after, message, rfl, hbefore, hmessage⟩ := s.exists_first_complaint hnone
    obtain ⟨trees, htrees⟩ := Files.exists_trees hbefore
    refine ⟨trees, before, file :: after, rfl, htrees, fun first hfirst => ?_⟩
    obtain rfl := Option.some.inj hfirst
    exact hmessage.not_holds

/-! ## All files -/

theorem Course.after_nil (c : Course) : c.after [] = c := rfl

theorem Course.after_after (c : Course) (events earlier : List Event) :
    (c.after events).after earlier = c.after (earlier ++ events) := by
  rw [after, after, after, List.append_assoc]

namespace Arguments

variable {a : Arguments} {s : Surroundings} {file message : String} {trees : String → Tree}

/-- What is logged of files, and what is said about them, when they hold certain trees. -/
def loggedOf (a : Arguments) (s : Surroundings) (trees : String → Tree) (names : List String) :
    List Event :=
  names.flatMap fun file => a.logged s (trees file)

def diagnosed (a : Arguments) (trees : String → Tree) (names : List String) : List Diagnostic :=
  names.flatMap fun file => a.diagnose file (trees file)

/-- A run goes on behind files that hold trees. -/
theorem runFrom_append {before : List String} (h : ∀ f ∈ before, s.files.Holds f (trees f))
    (ds : List Diagnostic) (rest : List String) :
    a.runFrom s ds (before ++ rest) =
      (a.runFrom s (ds ++ a.diagnosed trees before) rest).after (a.loggedOf s trees before) := by
  induction before generalizing ds with
  | nil => rw [diagnosed, loggedOf, List.flatMap_nil, List.flatMap_nil, List.append_nil,
      List.nil_append, Course.after_nil]
  | cons file before ih =>
    obtain ⟨hfile, hbefore⟩ := List.forall_mem_cons.1 h
    rw [List.cons_append, runFrom, Surroundings.tree_of_holds hfile]
    dsimp only
    rw [ih hbefore, Course.after_after, List.append_assoc]
    rfl

/-- The first file that holds no tree ends a run. -/
theorem run_of_complains {before after : List String} (hfiles : a.files = before ++ file :: after)
    (hbefore : ∀ f ∈ before, s.files.Holds f (trees f)) (h : s.Complains file message) :
    (a.run s).events = a.loggedOf s trees before ∧ (a.run s).exitCode = 1 ∧
      ∀ color, (a.run s).message? color = some message := by
  obtain ⟨outcome, htree, hcode, hmessage⟩ := Surroundings.tree_of_complains h
  have hrun : a.run s = ⟨a.loggedOf s trees before, outcome⟩ := by
    rw [run, hfiles, runFrom_append hbefore, runFrom, htree]
    dsimp only
    rw [Course.after, List.append_nil]
  rw [hrun]
  exact ⟨rfl, hcode, hmessage⟩

/-- If some file holds no tree, a run ends with what there is to say about the first. -/
theorem run_of_not_holds (h : ∃ file ∈ a.files, ¬ ∃ t, s.files.Holds file t) :
    ∃ before file after message, a.files = before ++ file :: after ∧
      (∀ f ∈ before, ∃ t, s.files.Holds f t) ∧ s.Complains file message ∧
      (a.run s).exitCode = 1 ∧ ∀ color, (a.run s).message? color = some message := by
  obtain ⟨before, file, after, message, hfiles, hbefore, hmessage⟩ := s.exists_first_complaint h
  obtain ⟨trees, htrees⟩ := Files.exists_trees hbefore
  exact ⟨before, file, after, message, hfiles, hbefore, hmessage,
    (run_of_complains hfiles htrees hmessage).2⟩

/-- If every file holds a tree, a run ends with what is said about the trees. -/
theorem run_of_holds (h : ∀ file ∈ a.files, s.files.Holds file (trees file)) :
    a.run s = ⟨a.loggedOf s trees a.files, .found (a.diagnosed trees a.files)⟩ := by
  have hrun := runFrom_append (a := a) h [] []
  rw [List.append_nil] at hrun
  rw [run, hrun, runFrom, Course.after, List.append_nil, List.nil_append]

/-- The events of a run are those of the files before the first that holds no tree. -/
theorem events_run {before after : List String}
    (hfiles : a.files = before ++ after)
    (hbefore : ∀ file ∈ before, s.files.Holds file (trees file))
    (hafter : ∀ file ∈ after.head?, ¬ ∃ t, s.files.Holds file t) :
    (a.run s).events = a.loggedOf s trees before := by
  cases after with
  | nil =>
    rw [List.append_nil] at hfiles
    subst hfiles
    rw [run_of_holds hbefore]
  | cons file after =>
    rcases s.holds_or_complains file with hholds | ⟨message, hmessage⟩
    · exact absurd hholds (hafter file rfl)
    · exact (run_of_complains hfiles hbefore hmessage).1

/-- What is noted of a tree is logged at the level of all events, or not at all. -/
theorem logged_eq (a : Arguments) (s : Surroundings) (t : Tree) :
    a.logged s t = if a.level s = .debug then a.events t else [] := by
  have hevent : ∀ e : Event, e.level = .debug := fun e => by cases e <;> rfl
  simp only [logged, hevent]
  cases a.level s with
  | debug => exact List.filter_true _
  | warn => exact List.filter_false _

theorem loggedOf_eq (trees : String → Tree) (names : List String) :
    a.loggedOf s trees names =
      if a.level s = .debug then names.flatMap fun file => a.events (trees file) else [] := by
  simp only [loggedOf, logged_eq]
  split
  · rfl
  · exact List.flatMap_eq_nil_iff.2 fun _ _ => rfl

/-! ## Trees -/

variable {t : Tree}

theorem accepts_iff :
    a.accepts t = true ↔ a.fits t = true ∧ t.violations (a.has .strict) = [] := by
  unfold accepts fits
  split
  · rw [Tree.isValidExpression_iff, Option.any_eq_true]
  · rw [Tree.isValid_iff, beq_iff_eq]

theorem diagnose_of_accepts (h : a.accepts t = true) : a.diagnose file t = [] := if_pos h

theorem diagnose_of_nil (h : ¬ a.accepts t = true) (hnil : t.violations (a.has .strict) = []) :
    a.diagnose file t = [a.wrongRoot file t] := by
  rw [diagnose, if_neg h, hnil]

theorem diagnose_of_ne_nil (hne : t.violations (a.has .strict) ≠ []) :
    a.diagnose file t = (t.violations (a.has .strict)).map (.ofViolation file) := by
  rw [diagnose, if_neg fun h => hne (accepts_iff.1 h).2]
  split
  · next hnil => exact absurd hnil hne
  · rfl

/-- A tree that is not valid has as many diagnostics as violations, and one if there is none. -/
theorem length_diagnose (a : Arguments) (file : String) (t : Tree) :
    (a.diagnose file t).length =
      if a.accepts t then 0 else max 1 (t.violations (a.has .strict)).length := by
  by_cases h : a.accepts t = true
  · rw [diagnose_of_accepts h, if_pos h]
    rfl
  rw [if_neg h]
  by_cases hnil : t.violations (a.has .strict) = []
  · rw [diagnose_of_nil h hnil, hnil]
    rfl
  · have hpos : 0 < (t.violations (a.has .strict)).length := List.length_pos_of_ne_nil hnil
    rw [diagnose_of_ne_nil hnil, List.length_map]
    omega

theorem diagnose_eq_nil_iff : a.diagnose file t = [] ↔ a.accepts t = true := by
  rw [← List.length_eq_zero_iff, length_diagnose]
  split
  · next h => exact ⟨fun _ => h, fun _ => rfl⟩
  · next h => exact ⟨fun h' => by omega, fun h' => absurd h' h⟩

theorem file_of_mem_diagnose {d : Diagnostic} (h : d ∈ a.diagnose file t) : d.file = file := by
  unfold diagnose at h
  split at h
  · cases h
  split at h
  · rw [List.mem_singleton.1 h]
    rfl
  · obtain ⟨v, -, rfl⟩ := List.mem_map.1 h
    rfl

end Arguments

end ScriptTree
