/-
  Writing a JSON document, without blanks.

  The functions take the text that follows, so that a part of a document is written
  once, however deep it lies.
-/
import ScriptTree.Json.Document
import ScriptTree.Json.Numeral
import ScriptTree.Json.Quoted

namespace ScriptTree

namespace Document

mutual

/-- A document, and the text after it. -/
def write : Document → List Char → List Char
  | .null, rest => 'n' :: 'u' :: 'l' :: 'l' :: rest
  | .bool true, rest => 't' :: 'r' :: 'u' :: 'e' :: rest
  | .bool false, rest => 'f' :: 'a' :: 'l' :: 's' :: 'e' :: rest
  | .number x, rest => Numeral.write x rest
  | .string s, rest => Quoted.write s rest
  | .array elements, rest => '[' :: writeElements elements (']' :: rest)
  | .object members, rest => '\x7b' :: writeMembers members ('\x7d' :: rest)

/-- Elements with commas between them, and the text after them. -/
def writeElements : List Document → List Char → List Char
  | [], rest => rest
  | [element], rest => element.write rest
  | element :: elements, rest => element.write (',' :: writeElements elements rest)

/-- Members with commas between them, and the text after them. -/
def writeMembers : List (String × Document) → List Char → List Char
  | [], rest => rest
  | [(name, value)], rest => Quoted.write name (':' :: value.write rest)
  | (name, value) :: members, rest =>
    Quoted.write name (':' :: value.write (',' :: writeMembers members rest))

end

/-- The text of a document. -/
def render (d : Document) : String := String.ofList (d.write [])

end Document

end ScriptTree
