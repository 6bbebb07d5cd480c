/-
  Trees and the JSON documents that carry them.

  JSON has no regular expressions.  An object that has one as its `value` also has a
  field `regex` with the pattern and the flags, and a document carries only that field.

  * `Tree.ofFields`: an object, its regular expression restored from `regex`
    (`regExp?_insert_value`: restoring it once is enough).
  * `Tree.ofDocument`: the tree of a document, objects built from the inside out, with
    the fields in the order of the text or in the order of their names.
  * `Tree.toDocument`, `Tree.render`: the document and the text of a tree.
-/
import ScriptTree.Json.Reader
import ScriptTree.Json.Writer
import ScriptTree.Tree.Basic
import ScriptTree.Tree.Fields

namespace ScriptTree

/-- The order in which the fields of an object are kept. -/
inductive FieldOrder where
  /-- As in the text; a name that is repeated keeps its first place. -/
  | text
  /-- Ascending by name. -/
  | name
  deriving DecidableEq, Repr

/-- Puts fields into an order. -/
def FieldOrder.arrange {V : Type} : FieldOrder → List (String × V) → List (String × V)
  | .text, fields => fields
  | .name, fields => Fields.sorted fields

namespace Tree

/-- The regular expression that a field `regex` describes, if it is an object with a
    string as `pattern` and one as `flags`. -/
def regExp? (fields : List (String × Tree)) : Option Tree := do
  let regex ← fields.lookup "regex"
  let pattern ← regex.get? "pattern" >>= string?
  let flags ← regex.get? "flags" >>= string?
  some (.regExp pattern flags)

/-- Fields whose `value` is the regular expression that `regex` describes, if it does. -/
def withRegExp (fields : List (String × Tree)) : List (String × Tree) :=
  match regExp? fields with
  | some value => Fields.insert fields "value" value
  | none => fields

/-- An object with some fields, its regular expression restored. -/
def ofFields (fields : List (String × Tree)) : Tree := .object (withRegExp fields)

/-- An object with one more field, or with a new value for one. -/
def insert (t : Tree) (name : String) (value : Tree) : Tree :=
  match t with
  | .object fields => .object (Fields.insert fields name value)
  | t => t

theorem get?_insert_self {t : Tree} (h : t.isObject = true) (name : String) (value : Tree) :
    (t.insert name value).get? name = some value := by
  cases t with
  | object fields => exact Fields.lookup_insert_self fields name value
  | _ => cases h

theorem get?_insert_of_ne {name other : String} (t value : Tree) (h : other ≠ name) :
    (t.insert name value).get? other = t.get? other := by
  cases t with
  | object fields => exact Fields.lookup_insert_of_ne fields value h
  | _ => rfl

theorem regExp?_insert_value (fields : List (String × Tree)) (value : Tree) :
    regExp? (Fields.insert fields "value" value) = regExp? fields := by
  simp [regExp?, Fields.lookup_insert_of_ne]

/-! ## Reading -/

mutual

/-- The tree of a document. -/
def ofDocument (order : FieldOrder) : Document → Tree
  | .null => .null
  | .bool b => .bool b
  | .number x => .number x
  | .string s => .string s
  | .array elements => .array (ofElements order elements)
  | .object members => ofFields (order.arrange (Fields.ofList (ofMembers order members)))

/-- The trees of the elements of an array. -/
def ofElements (order : FieldOrder) : List Document → List Tree
  | [] => []
  | element :: elements => ofDocument order element :: ofElements order elements

/-- The trees of the members of an object, repeated names included. -/
def ofMembers (order : FieldOrder) : List (String × Document) → List (String × Tree)
  | [] => []
  | (name, value) :: members => (name, ofDocument order value) :: ofMembers order members

end

/-- The tree of a text that holds exactly one document. -/
def read? (text : String) : Option Tree := (Document.read? text).map (ofDocument .text)

/-! ## Writing -/

mutual

/-- The document of a tree.  A regular expression is left to the field beside it. -/
def toDocument : Tree → Document
  | .null => .null
  | .bool b => .bool b
  | .number x => .number x
  | .string s => .string s
  | .regExp _ _ => .null
  | .array elements => .array (toElements elements)
  | .object fields => .object (toMembers fields)

/-- The documents of elements. -/
def toElements : List Tree → List Document
  | [] => []
  | element :: elements => toDocument element :: toElements elements

/-- The documents of fields. -/
def toMembers : List (String × Tree) → List (String × Document)
  | [] => []
  | (name, value) :: fields => (name, toDocument value) :: toMembers fields

end

/-- The text of a tree. -/
def render (t : Tree) : String := t.toDocument.render

end Tree

end ScriptTree
