/-
  The arguments of the command: flags, each at most once, and files.

  A lone hyphen is a file, and after a double hyphen everything is one.

  * `Arguments`: the flags and the files; there is at least one file
    (`files_ne_nil`).
  * `Invocation.read?`: what a list of words asks for.  The words are read one by one,
    and the first that is wrong, or that asks for help, decides.
-/

namespace ScriptTree

/-- A flag of the command. -/
inductive Flag where
  /-- Files are strict code. -/
  | strict
  /-- Files hold an expression. -/
  | expression
  /-- Output has no colour. -/
  | noColor
  /-- More is logged. -/
  | verbose
  deriving DecidableEq, Repr

namespace Flag

/-- How a flag is written. -/
def name : Flag → String
  | .strict => "--strict"
  | .expression => "--expression"
  | .noColor => "--no-color"
  | .verbose => "--verbose"

/-- The flag that is written as a word, if there is one. -/
def ofName? (s : String) : Option Flag :=
  [strict, expression, noColor, verbose].find? (·.name == s)

end Flag

/-- The arguments of a run. -/
structure Arguments where
  flags : List Flag
  files : List String
  deriving DecidableEq, Repr

/-- Whether a flag was given. -/
def Arguments.has (a : Arguments) (flag : Flag) : Bool := a.flags.contains flag

/-- What the words of a command ask for. -/
inductive Invocation where
  | help
  | check (arguments : Arguments)
  deriving DecidableEq, Repr

namespace Invocation

/-- Whether a word asks for help, in its long or in its short form. -/
def isHelp (word : String) : Bool := word == "--help" || ['-', 'h'].isPrefixOf word.toList

/-- Whether a word is an option and no file. -/
def isOption (word : String) : Bool := word.toList.head? == some '-' && word != "-"

/-- Arguments as they stand at the end of the words; none without a file. -/
def finish? (a : Arguments) : Option Invocation :=
  if a.files.isEmpty then none else some (.check a)

/-- Words behind others that gave some arguments; none if one of them is no flag, or a
    flag that was given before. -/
def readFrom? (a : Arguments) : List String → Option Invocation
  | [] => finish? a
  | word :: rest =>
    if word = "--" then finish? { a with files := a.files ++ rest }
    else if isHelp word then some .help
    else
      match Flag.ofName? word with
      | some flag =>
        if a.has flag then none else readFrom? { a with flags := flag :: a.flags } rest
      | none =>
        if isOption word then none else readFrom? { a with files := a.files ++ [word] } rest

/-- What a list of words asks for. -/
def read? (words : List String) : Option Invocation := readFrom? ⟨[], []⟩ words

theorem files_ne_nil_of_finish? {a b : Arguments} (h : finish? a = some (.check b)) :
    b.files ≠ [] := by
  unfold finish? at h
  split at h
  · cases h
  · next hne =>
    cases h
    simpa using hne

theorem files_ne_nil {words : List String} {a : Arguments} (h : read? words = some (.check a)) :
    a.files ≠ [] := by
  have go : ∀ (words : List String) (b : Arguments), readFrom? b words = some (.check a) →
      a.files ≠ [] := by
    intro words
    induction words with
    | nil => exact fun _ h => files_ne_nil_of_finish? h
    | cons word rest ih =>
      intro b h
      unfold readFrom? at h
      split at h
      · exact files_ne_nil_of_finish? h
      split at h
      · cases h
      split at h
      · split at h
        · cases h
        · exact ih _ h
      · split at h
        · cases h
        · exact ih _ h
  exact go words _ h

end Invocation

end ScriptTree
