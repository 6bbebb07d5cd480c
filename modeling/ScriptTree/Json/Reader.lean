/-
  Reading a JSON document.

  A document is read token by token.  The arrays and objects that are still open are
  kept as a list, the innermost one first, so the depth of a document is not limited.

  * `Reading`: what has been read so far, and what may come next.
  * `Reading.step?`: the effect of one token.
  * `Document.read?`: the document of a text that holds exactly one.
-/
import ScriptTree.Json.Document
import ScriptTree.Json.Token

namespace ScriptTree

/-- An array or object that is not yet closed, and what has been read of it, the last
    part first. -/
inductive Frame where
  | array (before : List Document)
  /-- An object, and the name of the member whose value comes next. -/
  | object (before : List (String × Document)) (name : String)

/-- A part of a document, and what may come next. -/
inductive Reading where
  /-- A value comes next. -/
  | beforeValue (frames : List Frame)
  /-- An array has been opened: its first element or its end comes next. -/
  | beforeFirstElement (frames : List Frame)
  /-- An object has been opened: its first name or its end comes next. -/
  | beforeFirstName (frames : List Frame)
  /-- A name comes next. -/
  | beforeName (before : List (String × Document)) (frames : List Frame)
  /-- The colon behind a name comes next. -/
  | beforeColon (before : List (String × Document)) (name : String) (frames : List Frame)
  /-- A value is complete: a comma or the end of the innermost frame comes next. -/
  | afterValue (value : Document) (frames : List Frame)

namespace Reading

/-- A token where a value is expected. -/
def beginValue? (frames : List Frame) : Token → Option Reading
  | .null => some (.afterValue .null frames)
  | .bool b => some (.afterValue (.bool b) frames)
  | .number x => some (.afterValue (.number x) frames)
  | .string s => some (.afterValue (.string s) frames)
  | .beginArray => some (.beforeFirstElement frames)
  | .beginObject => some (.beforeFirstName frames)
  | _ => none

/-- A token behind a complete value. -/
def endValue? (value : Document) : List Frame → Token → Option Reading
  | .array before :: frames, .comma => some (.beforeValue (.array (value :: before) :: frames))
  | .array before :: frames, .endArray =>
    some (.afterValue (.array (value :: before).reverse) frames)
  | .object before name :: frames, .comma => some (.beforeName ((name, value) :: before) frames)
  | .object before name :: frames, .endObject =>
    some (.afterValue (.object ((name, value) :: before).reverse) frames)
  | _, _ => none

/-- The effect of one token; none if it cannot stand there. -/
def step? : Reading → Token → Option Reading
  | .beforeValue frames, token => beginValue? frames token
  | .beforeFirstElement frames, .endArray => some (.afterValue (.array []) frames)
  | .beforeFirstElement frames, token => beginValue? (.array [] :: frames) token
  | .beforeFirstName frames, .endObject => some (.afterValue (.object []) frames)
  | .beforeFirstName frames, .string name => some (.beforeColon [] name frames)
  | .beforeName before frames, .string name => some (.beforeColon before name frames)
  | .beforeColon before name frames, .colon => some (.beforeValue (.object before name :: frames))
  | .afterValue value frames, token => endValue? value frames token
  | _, _ => none

/-- The document, if all of it has been read. -/
def finish? : Reading → Option Document
  | .afterValue value [] => some value
  | _ => none

end Reading

namespace Document

/-- The document that a list of tokens spells. -/
def ofTokens? (tokens : List Token) : Option Document :=
  tokens.foldlM Reading.step? (.beforeValue []) >>= Reading.finish?

/-- The document of a text that holds exactly one. -/
def read? (text : String) : Option Document :=
  Token.scan? text.toList >>= ofTokens?

end Document

end ScriptTree
