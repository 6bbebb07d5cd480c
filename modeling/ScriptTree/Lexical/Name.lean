/-
  Names of identifiers, and the words that cannot be one.

  * `Name.isName`: a name starts with a character that may start one, and goes on with
    characters that may continue one.  Escapes are not interpreted.
  * `Name.isReserved`: the words that name no variable, some of them in strict code
    only (`isReserved_of_sloppy`: strict code only adds words).
  * `Name.isRestricted`: the names that strict code neither binds nor assigns.
-/
import ScriptTree.Lexical.IdContinue
import ScriptTree.Lexical.IdStart

namespace ScriptTree

/-- Whether a character lies in one of the ranges of code points. -/
def inRanges (ranges : List (Nat × Nat)) (c : Char) : Bool :=
  ranges.any fun range => range.1 ≤ c.toNat && c.toNat ≤ range.2

namespace Name

/-- Keeps the letters beside it from being joined; part of a name in some scripts. -/
def zeroWidthNonJoiner : Char := '\u200c'

/-- Joins the letters beside it; part of a name in some scripts. -/
def zeroWidthJoiner : Char := '\u200d'

/-- Whether a character may start a name.  ASCII is decided without the table. -/
def isStart (c : Char) : Bool :=
  if c.toNat < 128 then c.isAlpha || c = '_' || c = '$' else inRanges IdStart.ranges c

/-- Whether a character may follow in a name.  ASCII is decided without the table. -/
def isPart (c : Char) : Bool :=
  if c.toNat < 128 then c.isAlphanum || c = '_' || c = '$'
  else inRanges IdContinue.ranges c || c = zeroWidthNonJoiner || c = zeroWidthJoiner

/-- Whether a list of characters spells a name. -/
def isNameOf : List Char → Bool
  | [] => false
  | first :: rest => isStart first && rest.all isPart

/-- Whether a string is a name. -/
def isName (s : String) : Bool := isNameOf s.toList

/-- The words that are reserved in all code. -/
def alwaysReserved : List String :=
  ["break", "case", "catch", "class", "const", "continue", "debugger", "default", "delete",
   "do", "else", "enum", "export", "extends", "false", "finally", "for", "function", "if",
   "import", "in", "instanceof", "new", "null", "return", "super", "switch", "this", "throw",
   "true", "try", "typeof", "var", "void", "while", "with"]

/-- The words that are reserved in strict code only. -/
def strictReserved : List String :=
  ["implements", "interface", "let", "package", "private", "protected", "public", "static",
   "yield"]

/-- Whether a word is reserved, in strict or in other code. -/
def isReserved (strict : Bool) (s : String) : Bool :=
  alwaysReserved.contains s || (strict && strictReserved.contains s)

/-- Whether strict code must not bind or assign a name. -/
def isRestricted (s : String) : Bool := s = "eval" || s = "arguments"

theorem isReserved_of_sloppy {s : String} (h : isReserved false s = true) (strict : Bool) :
    isReserved strict s = true := by
  simp only [isReserved, Bool.false_and, Bool.or_false] at h
  rw [isReserved, h, Bool.true_or]

end Name

end ScriptTree
