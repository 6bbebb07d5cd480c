/-
  Trees of a script, as a parser for ECMAScript 5 writes them down.

  * `Tree`: any value that may stand in such a tree, well formed or not.
  * `Tree.get?`, `Tree.child?`: the fields of an object.  A field that is `null` is no
    child.
  * `Tree.kind?`: the kind of a node; `Tree.describe`: the word for a value in a message.
-/
import ScriptTree.Double.Basic
import ScriptTree.Kind

namespace ScriptTree

/-- A value in a tree.  Objects keep the order of their fields. -/
inductive Tree where
  | null
  | bool (value : Bool)
  | number (value : Double)
  | string (value : String)
  | regExp (pattern flags : String)
  | array (elements : List Tree)
  | object (fields : List (String × Tree))
  deriving Inhabited, Repr

namespace Tree

/-! ## Fields -/

/-- A field of an object. -/
def get? : Tree → String → Option Tree
  | .object fields, name => fields.lookup name
  | _, _ => none

/-- A field of an object that is present and not `null`. -/
def child? (t : Tree) (name : String) : Option Tree :=
  match t.get? name with
  | some .null => none
  | field => field

/-- The text of a string. -/
def string? : Tree → Option String
  | .string s => some s
  | _ => none

/-- The value of a number. -/
def number? : Tree → Option Double
  | .number x => some x
  | _ => none

/-- The value of a boolean. -/
def bool? : Tree → Option Bool
  | .bool b => some b
  | _ => none

/-- The elements of an array. -/
def elements? : Tree → Option (List Tree)
  | .array elements => some elements
  | _ => none

/-- Whether a value has fields. -/
def isObject : Tree → Bool
  | .object _ => true
  | _ => false

/-! ## Nodes -/

/-- The type name of an object, if it is a string. -/
def typeName? (t : Tree) : Option String := t.get? "type" >>= string?

/-- The kind of a node. -/
def kind? (t : Tree) : Option Kind := t.typeName? >>= Kind.ofName?

/-- The word for a value in a message: the type name of an object that has one, and the
    sort of value otherwise. -/
def describe (t : Tree) : String :=
  match t with
  | .null => "null"
  | .bool _ => "boolean"
  | .number _ => "number"
  | .string _ => "string"
  | .regExp .. => "regular expression"
  | .array _ => "array"
  | .object _ => t.typeName?.getD "object"

theorem child?_eq_some_iff {t c : Tree} {name : String} :
    t.child? name = some c ↔ t.get? name = some c ∧ c ≠ .null := by
  unfold child?
  split
  · next h =>
    exact ⟨nofun, fun ⟨hc, hne⟩ => absurd (Option.some.inj (hc.symm.trans h)) hne⟩
  · next hne =>
    constructor
    · exact fun h => ⟨h, fun hc => hne (hc ▸ h)⟩
    · exact fun h => h.1

theorem isObject_of_get? {t c : Tree} {name : String} (h : t.get? name = some c) :
    t.isObject = true := by
  cases t <;> simp_all [get?, isObject]

theorem isObject_of_kind? {t : Tree} {kind : Kind} (h : t.kind? = some kind) :
    t.isObject = true := by
  obtain ⟨name, hname, -⟩ := Option.bind_eq_some_iff.1 h
  obtain ⟨_, htype, -⟩ := Option.bind_eq_some_iff.1 hname
  exact isObject_of_get? htype

/-- A field is a smaller value than the object that holds it. -/
theorem sizeOf_lt_of_get? {t c : Tree} {name : String} (h : t.get? name = some c) :
    sizeOf c < sizeOf t := by
  have hmem : ∀ fields : List (String × Tree), fields.lookup name = some c →
      sizeOf c < sizeOf fields := by
    intro fields
    induction fields with
    | nil => simp
    | cons field rest ih =>
      obtain ⟨key, value⟩ := field
      rw [List.lookup_cons]
      split
      · rintro h
        cases h
        simp only [List.cons.sizeOf_spec, Prod.mk.sizeOf_spec]
        omega
      · intro h
        have := ih h
        simp only [List.cons.sizeOf_spec]
        omega
  cases t with
  | object fields =>
    have := hmem fields h
    simp only [object.sizeOf_spec]
    omega
  | _ => cases h

theorem sizeOf_lt_of_child? {t c : Tree} {name : String} (h : t.child? name = some c) :
    sizeOf c < sizeOf t :=
  sizeOf_lt_of_get? (child?_eq_some_iff.1 h).1

/-- An element is a smaller value than the array that holds it. -/
theorem sizeOf_lt_of_elements? {t c : Tree} {elements : List Tree}
    (h : t.elements? = some elements) (hc : c ∈ elements) : sizeOf c < sizeOf t := by
  cases t with
  | array es =>
    cases h
    have := List.sizeOf_lt_of_mem hc
    simp only [array.sizeOf_spec]
    omega
  | _ => cases h

end Tree

end ScriptTree
