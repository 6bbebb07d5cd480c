/-
  The directive `use strict` in front of a program.

  * `Tree.withDirective`: a program with the directive in front of its body.
  * `Violation.behindDirective`: a violation of a program at its place behind the directive.
  * `strict_like_directive`: a program as strict code has the violations of the program with
    the directive, and a program that has the directive already is strict anyway.
-/
import ScriptTree.Proofs.FunctionBody
import ScriptTree.Proofs.Reporter
import ScriptTree.Proofs.StrictAdds
import ScriptTree.Tree.Document

namespace ScriptTree

namespace Tree

/-- The statement `"use strict";`. -/
def useStrict : Tree := statement (.node .literal [("value", .string "use strict")])

/-- A program with the directive in front of its body. -/
def withDirective (t : Tree) (body : List Tree) : Tree :=
  t.insert "body" (.array (useStrict :: body))

/-! ## The program with the directive -/

variable {t : Tree} {body : List Tree}

theorem kind?_withDirective : (t.withDirective body).kind? = t.kind? := by
  simp [kind?, typeName?, withDirective, get?_insert_of_ne]

theorem child?_withDirective (h : t.isObject = true) :
    (t.withDirective body).child? "body" = some (.array (useStrict :: body)) :=
  child?_eq_some_iff.2 ⟨get?_insert_self h _ _, nofun⟩

theorem locationFaults_withDirective :
    Steps.locationFaults (t.withDirective body) = Steps.locationFaults t := by
  simp [Steps.locationFaults, child?, withDirective, get?_insert_of_ne]

end Tree

/-- Nothing is wrong with the directive itself. -/
theorem violations_useStrict (scope : Scope) (trail : List Selector) :
    violations .node scope ⟨trail, .useStrict⟩ = [] := by
  have hliteral : violations .node scope
      ⟨.field "expression" :: trail, .node .literal [("value", .string "use strict")]⟩ = [] :=
    violations_eq _ _ _
  have hstatement : violations .node scope ⟨trail, .useStrict⟩ =
      violations .node scope
        ⟨.field "expression" :: trail, .node .literal [("value", .string "use strict")]⟩ ++ [] :=
    violations_eq _ _ _
  rw [hstatement, hliteral]
  rfl

/-! ## Places behind the directive -/

/-- The same field, or the next element of it. -/
def Field.next (f : Field) : Field := ⟨f.name, f.index.map (· + 1)⟩

/-- The fault of the next element of a list, if it is that of an element. -/
def Fault.next : Fault → Fault
  | missing field => missing field.next
  | misplaced field expected found => misplaced field.next expected found
  | fault => fault

theorem Fault.next_of_isLocation {f : Fault} (h : f.isLocation = true) : f.next = f := by
  cases f with
  | missing | misplaced => cases h
  | _ => rfl

namespace Violation

/-- A violation of a program at its place in a program with one more statement in front:
    below the elements of the body, or of the program itself. -/
def behindDirective (program : Tree) (w : Violation) : Violation :=
  match w.owner.trail.reverse with
  | [] => ⟨.root program, w.fault.next⟩
  | .field "body" :: .element index :: below =>
    ⟨⟨below.reverse ++ [.element (index + 1), .field "body"], w.owner.value⟩, w.fault⟩
  | _ => w

theorem behindDirective_element (program value : Tree) (below : List Selector) (index : Nat)
    (fault : Fault) :
    behindDirective program ⟨⟨below ++ [.element index, .field "body"], value⟩, fault⟩ =
      ⟨⟨below ++ [.element (index + 1), .field "body"], value⟩, fault⟩ := by
  simp [behindDirective]

end Violation

/-! ## The violations -/

theorem Prologue.usesStrict_useStrict (body : List Tree) :
    usesStrict (Tree.useStrict :: body) = true := by
  have hdirective : directive? Tree.useStrict = some "use strict" := by decide
  simp [usesStrict, hdirective]

variable {t : Tree} {body : List Tree}

/-- The program with the directive is charged with the faults of its location, which are
    those of the program, and then in the other statements. -/
theorem violations_withDirective (hkind : t.kind? = some .program) (strict : Bool) :
    (t.withDirective body).violations strict =
      (Steps.locationFaults t).map (fun f => ⟨.root (t.withDirective body), f⟩) ++
        ((body.zipIdx 1).flatMap fun (value, index) =>
          Steps.element (.root (t.withDirective body)) "body" .sourceElement false (.root true)
            value index).flatMap Step.violations := by
  have hobject := Tree.isObject_of_kind? hkind
  have hscope : Scope.ofBody strict (Tree.useStrict :: body) = .root true := by
    rw [Scope.ofBody, Prologue.usesStrict_useStrict, Bool.or_true]
  have hfirst : (Steps.element (.root (t.withDirective body)) "body" .sourceElement false
      (.root true) Tree.useStrict 0).flatMap Step.violations = [] := by
    have hnull : Tree.useStrict ≠ .null := by simp [Tree.useStrict, Tree.statement, Tree.node]
    rw [Steps.element_of_ne_null _ hnull]
    show [Step.visit .node (.root true) _].flatMap Step.violations = []
    simp [Step.violations, Occurrence.element, violations_useStrict]
  rw [violations_of_program (Tree.kind?_withDirective.trans hkind)
    (Tree.child?_withDirective hobject), Tree.locationFaults_withDirective, hscope,
    Steps.elements, List.zipIdx_cons, List.flatMap_cons, List.flatMap_append, hfirst,
    List.nil_append]

theorem violations_withDirective_eq (hkind : t.kind? = some .program)
    (hbody : t.child? "body" = some (.array body)) (strict : Bool) :
    (t.withDirective body).violations strict =
      (t.violations true).map (.behindDirective (t.withDirective body)) := by
  let move : Violation → Violation := .behindDirective (t.withDirective body)
  have hlocation : (Steps.locationFaults t).map (fun f => ⟨.root (t.withDirective body), f⟩) =
      ((Steps.locationFaults t).map fun f => ⟨.root t, f⟩).map move := by
    rw [List.map_map]
    refine List.map_congr_left fun f hf => ?_
    have hnext := Fault.next_of_isLocation (Steps.isLocation_of_mem_locationFaults hf)
    simp [move, Violation.behindDirective, Occurrence.root, hnext]
  have hmissing : ∀ index, (some ∘ move) ⟨.root t, .missing (.element "body" index)⟩ =
      some ⟨.root (t.withDirective body), .missing (.element "body" (index + 1))⟩ :=
    fun _ => rfl
  have hmisplaced : ∀ index kind,
      (some ∘ move) ⟨.root t, .misplaced (.element "body" index) .sourceElement kind⟩ =
        some ⟨.root (t.withDirective body),
          .misplaced (.element "body" (index + 1)) .sourceElement kind⟩ :=
    fun _ _ => rfl
  -- an element has the same violations at both places, each time those that it has by itself
  let place : Nat → Relocation := fun index => ⟨[.element index, .field "body"], false⟩
  have hplace : ∀ index value,
      violations .node (.root true) ⟨[.element index, .field "body"], value⟩ =
        (violations .node (.root true) (.root value)).filterMap (place index).violation? :=
    fun index value => violations_relocated (place index) .node (.root true) (.root value)
  have hvisit : ∀ index value,
      violations .node (.root true) ⟨[.element (index + 1), .field "body"], value⟩ =
        (violations .node (.root true) ⟨[.element index, .field "body"], value⟩).filterMap
          (some ∘ move) := by
    intro index value
    rw [hplace, hplace, List.filterMap_filterMap]
    refine List.filterMap_congr fun w _ => ?_
    exact congrArg some (Violation.behindDirective_element ..).symm
  rw [violations_withDirective hkind, violations_of_program hkind hbody, List.map_append,
    hlocation, ← List.filterMap_eq_map]
  exact congrArg _ (violations_elements hmissing hmisplaced hvisit body 0)

/-- A program that has the directive already is as strict by itself. -/
theorem violations_eq_of_strict (hkind : t.kind? = some .program)
    (hbody : t.child? "body" = some (.array body)) (hstrict : Prologue.Strict body)
    (strict strict' : Bool) : t.violations strict = t.violations strict' := by
  have hscope : ∀ strict, Scope.ofBody strict body = .root true := by
    intro strict
    rw [Scope.ofBody, Prologue.usesStrict_iff.2 hstrict, Bool.or_true]
  rw [violations_of_program hkind hbody, violations_of_program hkind hbody, hscope, hscope]

/-- **Strict by the outside is strict by a directive.**  A program whose body is a list has as
    strict code the violations, in the same order, that it has with the directive `use strict`
    in front: at the same values, with the indices of the body one larger in what is charged
    to the program itself.  So it is valid as strict code iff it is valid with the directive.
    If it has the directive already, its violations are the same by both. -/
theorem strict_like_directive (hkind : t.kind? = some .program)
    (hbody : t.child? "body" = some (.array body)) :
    (∀ strict, (t.withDirective body).violations strict =
      (t.violations true).map (.behindDirective (t.withDirective body))) ∧
    (∀ strict, (t.withDirective body).isValid strict = t.isValid true) ∧
    (Prologue.Strict body → ∀ strict strict', t.violations strict = t.violations strict') := by
  refine ⟨violations_withDirective_eq hkind hbody, fun strict => ?_,
    violations_eq_of_strict hkind hbody⟩
  rw [Bool.eq_iff_iff, Tree.isValid_iff, Tree.isValid_iff, Tree.kind?_withDirective,
    violations_withDirective_eq hkind hbody, List.map_eq_nil_iff]

/-- Two programs: a `with` statement beside a hole, and one behind the directive. -/
theorem plainWith_behindDirective :
    (∀ w ∈ [(⟨⟨[.element 1, .field "body"], .plainWith⟩, .strictWith⟩ : Violation),
        ⟨.root ((Tree.program [.plainWith, .null]).withDirective [.plainWith, .null]),
          .missing (.element "body" 2)⟩],
      w ∈ ((Tree.program [.plainWith, .null]).withDirective [.plainWith, .null]).violations
        false) ∧
    (Tree.program [.useStrict, .plainWith]).violations false =
      (Tree.program [.useStrict, .plainWith]).violations true := by
  have hwith : (⟨⟨[.element 0, .field "body"], .plainWith⟩, .strictWith⟩ : Violation) ∈
      (Tree.program [.plainWith, .null]).violations true := by
    refine Tree.mem_violations_iff.2 ⟨⟨.node, .root true, ⟨[.element 0, .field "body"],
      .plainWith⟩⟩, Relation.ReflTransGen.single ?_, List.mem_cons_self⟩
    exact List.mem_cons_self
  have hhole : (⟨.root (.program [.plainWith, .null]), .missing (.element "body" 1)⟩ :
      Violation) ∈ (Tree.program [.plainWith, .null]).violations true :=
    Tree.mem_violations_iff.2 ⟨_, Relation.ReflTransGen.refl, List.mem_cons_self⟩
  have hboth := (strict_like_directive (t := .program [.plainWith, .null]) rfl rfl).1 false
  have hstrict : Prologue.Strict [.useStrict, .plainWith] :=
    Prologue.usesStrict_iff.1 (Prologue.usesStrict_useStrict _)
  refine ⟨?_, (strict_like_directive (t := .program [.useStrict, .plainWith]) rfl rfl).2.2
    hstrict _ _⟩
  rw [hboth, List.forall_mem_cons, List.forall_mem_singleton]
  exact ⟨List.mem_map_of_mem hwith, List.mem_map_of_mem hhole⟩

end ScriptTree
