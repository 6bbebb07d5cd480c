/-
  JSON documents as they are written: members keep their order, and a name may occur
  more than once.
-/
import ScriptTree.Double.Basic

namespace ScriptTree

/-- A JSON document. -/
inductive Document where
  | null
  | bool (value : Bool)
  | number (value : Double)
  | string (value : String)
  | array (elements : List Document)
  /-- An object: its members in the order of the text, repeated names included. -/
  | object (members : List (String × Document))
  deriving Inhabited, Repr

end ScriptTree
