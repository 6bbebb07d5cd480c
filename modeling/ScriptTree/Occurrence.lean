/-
  Values together with the place in a tree where they stand.

  * `Selector`, `Occurrence`: one step from a value into it, and a value with the steps
    that lead to it from the root of the tree.
  * `Tree.at?`: the value that a trail leads to.
  * `Occurrence.child?`, `Occurrence.element`: the occurrences below one.  Their trails
    lead to them (`at?_of_child?`), and they are smaller (`sizeOf_lt_of_child?`).
-/
import ScriptTree.Tree.Basic

namespace ScriptTree

/-- A step from a value to one that it holds. -/
inductive Selector where
  | field (name : String)
  | element (index : Nat)
  deriving DecidableEq, Repr

/-- The value that a step leads to. -/
def Tree.select? (t : Tree) : Selector → Option Tree
  | .field name => t.get? name
  | .element index => t.elements? >>= (·[index]?)

/-- The value that a trail leads to, the last step of which comes first. -/
def Tree.at? (t : Tree) : List Selector → Option Tree
  | [] => some t
  | selector :: trail => t.at? trail >>= (·.select? selector)

/-- A value at a place of a tree. -/
structure Occurrence where
  /-- The steps from the root, the last one first. -/
  trail : List Selector
  value : Tree

namespace Occurrence

/-- The root of a tree. -/
def root (t : Tree) : Occurrence := ⟨[], t⟩

/-- A field that is present and not `null`. -/
def child? (o : Occurrence) (name : String) : Option Occurrence :=
  (o.value.child? name).map fun value => ⟨.field name :: o.trail, value⟩

/-- An element of a field that is an array. -/
def element (o : Occurrence) (name : String) (index : Nat) (value : Tree) : Occurrence :=
  ⟨.element index :: .field name :: o.trail, value⟩

theorem child?_eq_some_iff {o c : Occurrence} {name : String} :
    o.child? name = some c ↔
      o.value.child? name = some c.value ∧ c.trail = .field name :: o.trail := by
  simp only [child?, Option.map_eq_some_iff]
  constructor
  · rintro ⟨_, h, rfl⟩
    exact ⟨h, rfl⟩
  · rintro ⟨h, ht⟩
    exact ⟨_, h, by cases c; simp_all⟩

theorem child?_eq_none_iff {o : Occurrence} {name : String} :
    o.child? name = none ↔ o.value.child? name = none := by
  rw [child?, Option.map_eq_none_iff]

/-- The trail of a child leads to it. -/
theorem at?_of_child? {t : Tree} {o c : Occurrence} {name : String}
    (ho : t.at? o.trail = some o.value) (h : o.child? name = some c) :
    t.at? c.trail = some c.value := by
  obtain ⟨hvalue, htrail⟩ := child?_eq_some_iff.1 h
  rw [htrail, Tree.at?, ho]
  exact (Tree.child?_eq_some_iff.1 hvalue).1

/-- The trail of an element leads to it. -/
theorem at?_of_element {t : Tree} {o : Occurrence} {name : String} {list value : Tree}
    {elements : List Tree} {index : Nat} (ho : t.at? o.trail = some o.value)
    (hlist : o.value.child? name = some list) (helements : list.elements? = some elements)
    (hvalue : elements[index]? = some value) :
    t.at? (o.element name index value).trail = some value := by
  have hget := (Tree.child?_eq_some_iff.1 hlist).1
  simp [element, Tree.at?, Tree.select?, ho, hget, helements, hvalue]

theorem sizeOf_lt_of_child? {o c : Occurrence} {name : String} (h : o.child? name = some c) :
    sizeOf c.value < sizeOf o.value :=
  Tree.sizeOf_lt_of_child? (child?_eq_some_iff.1 h).1

theorem sizeOf_lt_of_element {o : Occurrence} {name : String} {list value : Tree}
    {elements : List Tree} (hlist : o.value.child? name = some list)
    (helements : list.elements? = some elements) (hvalue : value ∈ elements) :
    sizeOf value < sizeOf o.value :=
  Nat.lt_trans (Tree.sizeOf_lt_of_elements? helements hvalue) (Tree.sizeOf_lt_of_child? hlist)

end Occurrence

end ScriptTree
