/-
  Violations as they are shown: with a file, a position and a part of the tree.

  * `Tree.position?`: the position that a node gives itself.
  * `Tree.snippet`: the text of a value, cut after eighty characters.
  * `Diagnostic.line`, `Diagnostic.report`: one line for each diagnostic, first those
    without a position, then the others by file and position.
  * `Diagnostic.card`: a diagnostic for a terminal, in three lines, with or without
    colour.
-/
import ScriptTree.Tree.Document
import ScriptTree.Violation

namespace ScriptTree

/-- A position in a source text. -/
structure Position where
  line : Nat
  column : Nat
  deriving DecidableEq, Repr

/-- The start of the location of a node, if it is a position: the line is at least one,
    the column at least zero. -/
def Tree.position? (t : Tree) : Option Position := do
  let location ← t.child? "loc"
  let start ← location.child? "start"
  let line ← start.get? "line" >>= number?
  let column ← start.get? "column" >>= number?
  if Double.one.le line && Double.zero.le column then
    some ⟨line.wholePart, column.wholePart⟩
  else none

/-- How many characters of a value are shown. -/
def snippetLimit : Nat := 80

/-- A text, cut if it is longer than what is shown. -/
def cut (text : List Char) : List Char :=
  if text.length ≤ snippetLimit then text else text.take snippetLimit ++ ['.', '.', '.']

/-- The text of a value, as far as it is shown. -/
def Tree.snippet (t : Tree) : String := String.ofList (cut t.render.toList)

/-- A violation as it is shown.  It keeps nothing of the tree but texts. -/
structure Diagnostic where
  file : String
  position : Option Position
  message : String
  snippet : String
  deriving DecidableEq, Repr

namespace Diagnostic

/-- The diagnostic of a violation in a file. -/
def ofViolation (file : String) (v : Violation) : Diagnostic where
  file := file
  position := v.owner.value.position?
  message := v.message
  snippet := v.owner.value.snippet

/-- What a diagnostic calls itself. -/
def label : String := "ValidationError"

/-- A position behind the name of its file. -/
def placeSuffix : Option Position → String
  | none => ""
  | some p => ":" ++ p.line.repr ++ ":" ++ p.column.repr

/-- The file and the position of a diagnostic. -/
def place (d : Diagnostic) : String := d.file ++ placeSuffix d.position

/-- A diagnostic in one line. -/
def line (d : Diagnostic) : String := label ++ ": " ++ d.place ++ " " ++ d.message

/-! ## Reports -/

/-- The order of places: by file, then by line, then by column. -/
def placeLe (a b : Diagnostic × Position) : Bool :=
  a.1.file < b.1.file ||
    (a.1.file == b.1.file &&
      (a.2.line < b.2.line || (a.2.line == b.2.line && a.2.column ≤ b.2.column)))

/-- The diagnostics that have a position, each with it. -/
def positioned (ds : List Diagnostic) : List (Diagnostic × Position) :=
  ds.filterMap fun d => d.position.map (d, ·)

/-- Diagnostics as a report lists them: those without a position keep their order, the
    others follow in the order of their places, and those of one place keep theirs. -/
def arrange (ds : List Diagnostic) : List Diagnostic :=
  ds.filter (·.position.isNone) ++ ((positioned ds).mergeSort placeLe).map (·.1)

/-- A report: one line for each diagnostic. -/
def report (ds : List Diagnostic) : String := "\n".intercalate ((arrange ds).map line)

/-! ## Cards -/

/-- A way in which a terminal shows text. -/
inductive Style where
  | reset
  | bold
  | dim
  | red
  | defaultColor
  deriving DecidableEq, Repr

/-- The sequence that turns a style on. -/
def Style.code : Style → String
  | .reset => "\x1b[0m"
  | .bold => "\x1b[1m"
  | .dim => "\x1b[2m"
  | .red => "\x1b[31m"
  | .defaultColor => "\x1b[39m"

/-- A part of a card: a text, or a change of style that is left out without colour. -/
inductive Part where
  | text (s : String)
  | style (s : Style)

/-- The text of a part, with or without colour. -/
def Part.render (color : Bool) : Part → String
  | .text s => s
  | .style s => if color then s.code else ""

/-- The parts of a card: the message, the place and the snippet. -/
def parts (d : Diagnostic) : List Part :=
  [.style .bold, .style .red, .text label, .style .defaultColor, .text (": " ++ d.message),
   .style .reset, .text "\n",
   .style .dim, .text "  ┌ ", .style .reset, .text (d.place ++ "\n"),
   .style .dim, .text "  | ", .style .reset, .text d.snippet]

/-- A diagnostic in three lines. -/
def card (color : Bool) (d : Diagnostic) : String := String.join (d.parts.map (·.render color))

end Diagnostic

end ScriptTree
