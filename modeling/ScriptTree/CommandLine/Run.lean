/-
  A run of the command over its files.

  What a run needs from outside is a value, so a run depends on nothing but that and the
  arguments.

  * `Surroundings`: the contents of files, and the words that are not the command's own.
  * `Outcome`: how a run ends; `Outcome.message?`, `Outcome.exitCode`: what it shows.
  * `Arguments.run`: the first file that cannot be read or parsed ends the run; otherwise it
    ends with the diagnostics of all files, in order.
  * `Course.written`: what a run writes: its log, and then what it shows.
-/
import ScriptTree.CommandLine.Arguments
import ScriptTree.CommandLine.Log
import ScriptTree.Diagnostic
import ScriptTree.Validation

namespace ScriptTree

/-- Why a file cannot be read. -/
inductive ReadFailure where
  | notFound
  | permissionDenied
  | notDirectory
  | isDirectory
  /-- The path, or a name in it, is longer than the system allows. -/
  | nameTooLong
  /-- The bytes of the file are no text. -/
  | invalidText
  /-- Any other reason, in the words of the system. -/
  | other (reason : String)
  deriving DecidableEq, Repr

/-- The reason in words, as the system puts it. -/
def ReadFailure.message : ReadFailure → String
  | .notFound => "No such file or directory (os error 2)"
  | .permissionDenied => "Permission denied (os error 13)"
  | .notDirectory => "Not a directory (os error 20)"
  | .isDirectory => "Is a directory (os error 21)"
  | .nameTooLong => "File name too long (os error 36)"
  | .invalidText => "stream did not contain valid UTF-8"
  | .other reason => reason

/-- The contents of the files that a run may ask for. -/
abbrev Files := String → Except ReadFailure ByteArray

/-- The text of a file. -/
def Files.text (files : Files) (file : String) : Except ReadFailure String := do
  let bytes ← files file
  match String.fromUTF8? bytes with
  | some text => .ok text
  | none => .error .invalidText

/-- What a run finds around it. -/
structure Surroundings where
  files : Files
  /-- Why a text is no document, in the words of its reader. -/
  refusal : String → String
  /-- The level that is set for logs, if there is one. -/
  level? : Option Level
  /-- The line for an event, by its number too: a line may tell the time. -/
  logLine : Nat → Event → String

/-- How a run ends. -/
inductive Outcome where
  /-- Every file is valid. -/
  | clean
  | unreadable (file : String) (failure : ReadFailure)
  | unparsable (file reason : String)
  /-- Some file is not valid. -/
  | invalid (diagnostics : List Diagnostic)
  deriving DecidableEq, Repr

namespace Arguments

/-- What a file must hold, for a message. -/
def expectation (a : Arguments) : String :=
  if a.has .expression then "an expression" else "a Program"

/-- What a file should be, for a log. -/
def subject (a : Arguments) : String := if a.has .expression then "expression" else "program"

/-- Whether the root of a tree is what it must be. -/
def fits (a : Arguments) (t : Tree) : Bool :=
  if a.has .expression then t.kind?.any Kind.isExpression else t.kind? == some .program

/-- Whether the tree of a file is what it must be. -/
def accepts (a : Arguments) (t : Tree) : Bool :=
  if a.has .expression then t.isValidExpression (a.has .strict)
  else t.isValid (a.has .strict)

/-- The diagnostic of a tree that follows all rules but has the wrong root. -/
def wrongRoot (a : Arguments) (file : String) (t : Tree) : Diagnostic where
  file := file
  position := none
  message := t.describe ++ ": root must be " ++ a.expectation
  snippet := t.describe

/-- The diagnostics of the tree of a file. -/
def diagnose (a : Arguments) (file : String) (t : Tree) : List Diagnostic :=
  if a.accepts t then []
  else
    match t.violations (a.has .strict) with
    | [] => [a.wrongRoot file t]
    | violations => violations.map (.ofViolation file)

/-- What is noted about the tree of a file.  Violations are collected only if it is not valid. -/
def events (a : Arguments) (t : Tree) : List Event :=
  (if a.fits t then .validated a.subject t.describe (a.accepts t)
    else .wrongRoot a.expectation t.describe) ::
  if a.accepts t then [] else [.collected t.describe (t.violations (a.has .strict)).length]

/-- The level at which the log of a run starts.  A level that is set goes before the flag. -/
def level (a : Arguments) (s : Surroundings) : Level :=
  s.level?.getD (if a.has .verbose then .debug else .warn)

/-- The events of a tree that are logged. -/
def logged (a : Arguments) (s : Surroundings) (t : Tree) : List Event :=
  (a.events t).filter ((a.level s).admits ·.level)

end Arguments

/-- The tree of a file, or how a run ends because there is none. -/
def Surroundings.tree (s : Surroundings) (file : String) : Except Outcome Tree :=
  match s.files.text file with
  | .error failure => .error (.unreadable file failure)
  | .ok text =>
    match Tree.read? text with
    | none => .error (.unparsable file (s.refusal text))
    | some t => .ok t

namespace Outcome

/-- How a run ends that found some diagnostics in the trees of all its files. -/
def found : List Diagnostic → Outcome
  | [] => .clean
  | d :: ds => .invalid (d :: ds)

/-- The exit code of a run. -/
def exitCode : Outcome → Nat
  | .clean => 0
  | .unreadable .. | .unparsable .. | .invalid _ => 1

/-- What a run shows: with colour the cards of the diagnostics in the order in which
    they were found, without it a report. -/
def message? (color : Bool) : Outcome → Option String
  | .clean => none
  | .unreadable file failure => some ("Error reading " ++ file ++ ": " ++ failure.message)
  | .unparsable file reason => some ("Error parsing " ++ file ++ ": " ++ reason)
  | .invalid diagnostics =>
    some (if color then "\n".intercalate (diagnostics.map (·.card true))
      else Diagnostic.report diagnostics)

end Outcome

/-! ## Runs -/

/-- What a run does: it logs events, and it ends. -/
structure Course where
  events : List Event
  outcome : Outcome
  deriving DecidableEq, Repr

namespace Course

/-- A course with events before it. -/
def after (events : List Event) (c : Course) : Course := { c with events := events ++ c.events }

def exitCode (c : Course) : Nat := c.outcome.exitCode

def message? (c : Course) (color : Bool) : Option String := c.outcome.message? color

/-- What a run writes, each piece with a line break behind it: its log, then what it shows. -/
def written (logLine : Nat → Event → String) (color : Bool) (c : Course) : List String :=
  c.events.mapIdx logLine ++ (c.message? color).toList

end Course

namespace Arguments

/-- A run over further files, behind some in which there were diagnostics. -/
def runFrom (a : Arguments) (s : Surroundings) (diagnostics : List Diagnostic) :
    List String → Course
  | [] => ⟨[], .found diagnostics⟩
  | file :: rest =>
    match s.tree file with
    | .error outcome => ⟨[], outcome⟩
    | .ok t => (runFrom a s (diagnostics ++ a.diagnose file t) rest).after (a.logged s t)

/-- A run over all files. -/
def run (a : Arguments) (s : Surroundings) : Course := a.runFrom s [] a.files

/-- Whether a run uses colour, on a terminal that supports it or not. -/
def usesColor (a : Arguments) (supported : Bool) : Bool := supported && !a.has .noColor

/-- What a run writes on a terminal that supports colour or not. -/
def written (a : Arguments) (s : Surroundings) (supported : Bool) : List String :=
  (a.run s).written s.logLine (a.usesColor supported)

end Arguments

end ScriptTree
