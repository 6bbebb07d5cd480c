/-
  The rule of object literals.

  A property is no node of its own: it is an object with a kind, a key and a value.  Its
  key is a name, a string or a number; two properties of one name may stand in one
  literal if one is its getter and the other its setter, or, outside strict code, if
  both are data properties.

  * `PropertyKind`, `propertyName?`: the kind of a property and the name its key gives.
  * `Seen`: the kinds of properties that a name has had so far.
  * `Rule.objectExpression`: the properties in order.
-/
import ScriptTree.Double.Text
import ScriptTree.Rule.Expression
import ScriptTree.Tree.Fields

namespace ScriptTree

/-- A kind of property. -/
inductive PropertyKind where
  /-- A data property. -/
  | init
  | get
  | set
  deriving DecidableEq, Repr

namespace PropertyKind

/-- How a property names its kind. -/
def name : PropertyKind → String
  | .init => "init"
  | .get => "get"
  | .set => "set"

/-- The kind that a string names, if it names one. -/
def ofName? (s : String) : Option PropertyKind := [init, get, set].find? (·.name == s)

/-- The kind that a property gives itself. -/
def of? (property : Tree) : Option PropertyKind :=
  property.get? "kind" >>= Tree.string? >>= ofName?

end PropertyKind

/-! ## Names -/

/-- A number as the name of a property: without a fraction of zero, and without an
    exponent from a millionth up to twenty-one places before the point. -/
def keyStyle : NumberStyle where
  least := -6
  greatest := 20
  pointZero := false

/-- The name that a number gives a property. -/
def numberName (x : Double) : String :=
  if x.isNaN then "NaN"
  else if x.isFinite then
    String.ofList (if x.magnitude = 0 then ['0'] else x.text keyStyle)
  else if x.negative then "-Infinity"
  else "Infinity"

/-- The name that the value of a literal gives a property. -/
def literalName? : Tree → Option String
  | .string s => some s
  | .number x => if (Literal.numberFault? x).isNone then some (numberName x) else none
  | _ => none

/-- The name that a key gives a property: the key is an identifier, which may be a
    reserved word, or a string or number literal. -/
def propertyName? (key : Tree) : Option String :=
  match key.kind? with
  | some .identifier => (key.get? "name" >>= Tree.string?).filter Name.isName
  | some .literal => key.get? "value" >>= literalName?
  | _ => none

/-! ## Conflicts -/

/-- The kinds of properties that a name has had. -/
structure Seen where
  init : Bool
  get : Bool
  set : Bool
  deriving DecidableEq, Repr

namespace Seen

/-- A name that has not occurred. -/
def nothing : Seen := ⟨false, false, false⟩

/-- One more property of the name. -/
def add (s : Seen) : PropertyKind → Seen
  | .init => { s with init := true }
  | .get => { s with get := true }
  | .set => { s with set := true }

/-- Whether a property cannot stand beside those before it, in any code. -/
def conflicts (s : Seen) : PropertyKind → Bool
  | .init => s.get || s.set
  | .get => s.init || s.get
  | .set => s.init || s.set

/-- The fault of a property that comes after others of its name. -/
def fault? (s : Seen) (strict : Bool) (kind : PropertyKind) (key : String) : Option Fault :=
  if s.conflicts kind then some (.conflictingProperty key)
  else if kind = .init ∧ s.init ∧ strict then some (.duplicateProperty key)
  else none

end Seen

/-- What the names of a literal have had, for each name that occurred. -/
abbrev SeenNames := List (String × Seen)

namespace SeenNames

/-- What a name has had. -/
def of (names : SeenNames) (key : String) : Seen := (names.lookup key).getD .nothing

/-- One more property of a name. -/
def add (names : SeenNames) (key : String) (kind : PropertyKind) : SeenNames :=
  Fields.insert names key ((names.of key).add kind)

end SeenNames

/-- The name and the kind of a property that has both. -/
def signature? (property : Tree) : Option (String × PropertyKind) := do
  let kind ← PropertyKind.of? property
  let key ← property.child? "key" >>= propertyName?
  some (key, kind)

/-- Whether a value is a function expression with a count of parameters. -/
def isFunctionOf (parameters : Nat) (value : Tree) : Bool :=
  value.kind? == some .functionExpression &&
    (value.get? "params" >>= Tree.elements?).any (·.length == parameters)

namespace Rule

open Steps

/-- The key of a property. -/
def propertyKey (property : Occurrence) : List Step :=
  match property.child? "key" with
  | some key =>
    faultIf (propertyName? key.value).isNone property .invalidPropertyKey ++ location key
  | none => fault property (.missing (.named "key"))

/-- The value of a getter or setter. -/
def accessor (property : Occurrence) : List Step :=
  match PropertyKind.of? property.value, property.value.child? "value" with
  | some .get, some value => faultIf (!isFunctionOf 0 value) property .getterParameters
  | some .set, some value => faultIf (!isFunctionOf 1 value) property .setterParameters
  | _, _ => []

/-- A property beside those before it. -/
def conflict (property : Occurrence) (scope : Scope) (names : SeenNames) : List Step :=
  match signature? property.value with
  | some (key, kind) =>
    ((names.of key).fault? scope.strict kind key).toList.flatMap (fault property)
  | none => []

/-- A property that is an object. -/
def property (property : Occurrence) (scope : Scope) (names : SeenNames) : List Step :=
  location property ++
    faultIf (PropertyKind.of? property.value).isNone property .invalidPropertyKind ++
    propertyKey property ++ required property "value" .expression scope ++
    accessor property ++ conflict property scope names

/-- What the names have had after a property. -/
def remember (names : SeenNames) (property : Tree) : SeenNames :=
  match signature? property with
  | some (key, kind) => names.add key kind
  | none => names

/-- Properties, after others that gave the names what they have had. -/
def properties (o : Occurrence) (scope : Scope) (names : SeenNames) :
    List (Tree × Nat) → List Step
  | [] => []
  | (value, index) :: rest =>
    if value.isObject then
      property (o.element "properties" index value) scope names ++
        properties o scope (remember names value) rest
    else
      fault o (.notProperty (.element "properties" index)) ++ properties o scope names rest

/-- Object literals. -/
def objectExpression (o : Occurrence) (scope : Scope) : List Step :=
  withList o "properties" fun values => properties o scope [] values.zipIdx

/-! ## What is visited -/

theorem within_property {p : Occurrence} {scope : Scope} {names : SeenNames} :
    Within p (property p scope names) := by
  have hkey : Within p (propertyKey p) := by
    unfold propertyKey
    split <;> simp
  have haccessor : Within p (accessor p) := by
    unfold accessor
    split <;> simp
  have hconflict : Within p (conflict p scope names) := by
    unfold conflict
    split
    · exact within_flatMap_fault
    · exact within_nil
  simp [property, hkey, haccessor, hconflict]

theorem within_properties {o : Occurrence} {list : Tree} {values : List Tree}
    (hlist : o.value.child? "properties" = some list)
    (hvalues : list.elements? = some values) (scope : Scope) :
    ∀ (rest : List (Tree × Nat)) (names : SeenNames), (∀ p ∈ rest, p.1 ∈ values) →
      Within o (properties o scope names rest)
  | [], _, _ => within_nil
  | (value, index) :: rest, names, h => by
    have ih := within_properties hlist hvalues scope rest
    have hrest : ∀ p ∈ rest, p.1 ∈ values := fun p hp => h p (List.mem_cons_of_mem _ hp)
    unfold properties
    split
    · exact within_append.2 ⟨within_property.trans
        (Occurrence.sizeOf_lt_of_element hlist hvalues (h _ List.mem_cons_self)), ih _ hrest⟩
    · exact within_append.2 ⟨within_fault, ih _ hrest⟩

theorem within_objectExpression {o : Occurrence} {scope : Scope} :
    Within o (objectExpression o scope) :=
  within_withList fun _ _ hlist hvalues => within_properties hlist hvalues scope _ _
    fun _ hp => (List.mem_zipIdx hp).2.2 ▸ List.getElem_mem _

end Rule

end ScriptTree
