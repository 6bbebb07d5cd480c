/-
  Statements beside each other.

  * `Tree.HasBody`: a program or a block without a location, and the statements in it.
  * `Violation.behind`: a violation of a list at its place behind other elements.
  * `violations_elements_append`: a list has the violations of its two parts.
  * `siblings_independent`: so have programs and blocks.
-/
import ScriptTree.Proofs.FunctionBody
import ScriptTree.Proofs.Strictness

namespace ScriptTree

/-- A node of a kind that has a list of statements, and no location. -/
structure Tree.HasBody (t : Tree) (kind : Kind) (body : List Tree) : Prop where
  kind_eq : t.kind? = some kind
  body_eq : t.child? "body" = some (.array body)
  no_location : t.child? "loc" = none

/-! ## Places behind other elements -/

/-- The same field, or an element of it further behind. -/
def Field.later (offset : Nat) (f : Field) : Field := ⟨f.name, f.index.map (· + offset)⟩

/-- The fault of an element further behind, if it is that of an element. -/
def Fault.later (offset : Nat) : Fault → Fault
  | missing field => missing (field.later offset)
  | misplaced field expected found => misplaced (field.later offset) expected found
  | fault => fault

/-- The steps from one occurrence to another that is below it, the first one first. -/
def Occurrence.stepsTo (o p : Occurrence) : List Selector :=
  (p.trail.take (p.trail.length - o.trail.length)).reverse

theorem Occurrence.stepsTo_append (o : Occurrence) (below : List Selector) (value : Tree) :
    o.stepsTo ⟨below ++ o.trail, value⟩ = below.reverse := by
  simp [stepsTo]

namespace Violation

/-- A violation of a list, at its place in a list that has more elements in front.  The owner
    of the longer list stands where that of the other one does: what is charged to the one is
    charged to the other, and what is charged below an element remains below it. -/
def behind (owner : Occurrence) (offset : Nat) (w : Violation) : Violation :=
  match owner.stepsTo w.owner with
  | [] => ⟨owner, w.fault.later offset⟩
  | .field name :: .element index :: below =>
    ⟨⟨below.reverse ++ .element (index + offset) :: .field name :: owner.trail, w.owner.value⟩,
      w.fault⟩
  | _ => w

variable {owner : Occurrence} {offset : Nat}

theorem behind_self (value : Tree) (fault : Fault) :
    behind owner offset ⟨⟨owner.trail, value⟩, fault⟩ = ⟨owner, fault.later offset⟩ := by
  have hsteps : owner.stepsTo ⟨owner.trail, value⟩ = [] := owner.stepsTo_append [] value
  simp [behind, hsteps]

theorem behind_element (below : List Selector) (name : String) (index : Nat) (value : Tree)
    (fault : Fault) :
    behind owner offset
        ⟨⟨below ++ .element index :: .field name :: owner.trail, value⟩, fault⟩ =
      ⟨⟨below ++ .element (index + offset) :: .field name :: owner.trail, value⟩, fault⟩ := by
  have hsteps : owner.stepsTo ⟨below ++ .element index :: .field name :: owner.trail, value⟩ =
      .field name :: .element index :: below.reverse := by
    have h := owner.stepsTo_append (below ++ [.element index, .field name]) value
    simpa using h
  simp [behind, hsteps]

end Violation

/-! ## Lists -/

/-- A value has the same violations at every place, moved along. -/
theorem violations_at (scope : Scope) (trail : List Selector) (value : Tree) :
    violations .node scope ⟨trail, value⟩ =
      (violations .node scope ⟨[], value⟩).map fun w =>
        ⟨⟨w.owner.trail ++ trail, w.owner.value⟩, w.fault⟩ := by
  have h := violations_relocated ⟨trail, false⟩ .node scope ⟨[], value⟩
  rw [← List.filterMap_eq_map]
  exact h

/-- The elements of a list have the same violations behind other elements. -/
theorem violations_elements_behind (o o' : Occurrence) (htrail : o.trail = o'.trail)
    (name : String) (category : Category) (scope : Scope) (values : List Tree) (offset : Nat) :
    ((values.zipIdx offset).flatMap fun (value, index) =>
        Steps.element o' name category false scope value index).flatMap Step.violations =
      ((Steps.elements o name category false scope values).flatMap Step.violations).map
        (.behind o' offset) := by
  have hvisit : ∀ index value,
      violations .node scope (o'.element name (index + offset) value) =
        (violations .node scope (o.element name index value)).filterMap
          (some ∘ .behind o' offset) := by
    intro index value
    rw [Occurrence.element, Occurrence.element, htrail, List.filterMap_eq_map, violations_at,
      violations_at _ (.element index :: _), List.map_map]
    refine List.map_congr_left fun w _ => ?_
    exact (Violation.behind_element ..).symm
  have hself : ∀ fault, (some ∘ Violation.behind o' offset) ⟨o, fault⟩ =
      some ⟨o', fault.later offset⟩ := by
    intro fault
    obtain ⟨trail, value⟩ := o
    obtain rfl : trail = o'.trail := htrail
    exact congrArg some (Violation.behind_self ..)
  have h := violations_elements (fun index => hself (.missing (.element name index)))
    (fun index kind => hself (.misplaced (.element name index) category kind)) hvisit values 0
  rwa [Nat.zero_add, List.filterMap_eq_map] at h

/-- **A list has the violations of its two parts**, the second ones behind the first part. -/
theorem violations_elements_append (trail : List Selector) (p q r : Tree) (name : String)
    (category : Category) (scope : Scope) (A B : List Tree) :
    (Steps.elements ⟨trail, r⟩ name category false scope (A ++ B)).flatMap Step.violations =
      ((Steps.elements ⟨trail, p⟩ name category false scope A).flatMap Step.violations).map
        (.behind ⟨trail, r⟩ 0) ++
      ((Steps.elements ⟨trail, q⟩ name category false scope B).flatMap Step.violations).map
        (.behind ⟨trail, r⟩ A.length) := by
  rw [← violations_elements_behind ⟨trail, p⟩ ⟨trail, r⟩ rfl,
    ← violations_elements_behind ⟨trail, q⟩ ⟨trail, r⟩ rfl, Steps.elements,
    List.zipIdx_append, List.flatMap_append, List.flatMap_append, Nat.zero_add]

/-! ## Programs and blocks -/

namespace Tree.HasBody

variable {t : Tree} {kind : Kind} {body : List Tree}

theorem locationFaults (h : t.HasBody kind body) : Steps.locationFaults t = [] := by
  rw [Steps.locationFaults, h.no_location]

theorem violations_program (h : t.HasBody .program body) (strict : Bool) :
    t.violations strict =
      (Steps.elements (.root t) "body" .sourceElement false (.ofBody strict body)
        body).flatMap Step.violations := by
  rw [violations_of_program h.kind_eq h.body_eq, h.locationFaults]
  rfl

theorem violations_block (h : t.HasBody .blockStatement body) (scope : Scope)
    (trail : List Selector) :
    ScriptTree.violations .node scope ⟨trail, t⟩ =
      (Steps.elements ⟨trail, t⟩ "body" .statement false scope body).flatMap
        Step.violations := by
  rw [violations_eq]
  simp [Tree.nodeKind_eq_ok_iff.2 h.kind_eq, rule, Steps.location, h.locationFaults,
    Rule.ofKind, Rule.blockStatement, Steps.list, Steps.withList, h.body_eq, Tree.elements?]

theorem usesStrict_iff (h : t.HasBody .program body) :
    Prologue.usesStrict body = true ↔ t.MakesStrict := by
  rw [Tree.makesStrict_iff h.kind_eq, Prologue.usesStrict_iff, Grammar.code?, h.body_eq]
  simp [Tree.elements?]

/-- Programs that agree on being strict have bodies in the same scope. -/
theorem ofBody_eq {t' : Tree} {body' : List Tree} (h : t.HasBody .program body)
    (h' : t'.HasBody .program body') {strict : Bool}
    (hagree : strict = true ∨ (t.MakesStrict ↔ t'.MakesStrict)) :
    Scope.ofBody strict body = .ofBody strict body' := by
  rcases hagree with rfl | hagree
  · rfl
  · have huses : Prologue.usesStrict body = Prologue.usesStrict body' :=
      Bool.eq_iff_iff.2 (h.usesStrict_iff.trans (hagree.trans h'.usesStrict_iff.symm))
    rw [Scope.ofBody, Scope.ofBody, huses]

end Tree.HasBody

/-- **Statements beside each other do not influence each other.**  A program without a
    location whose body is one list behind another has the violations of the two programs
    with these bodies, one after the other, if all three agree on being strict, or all code
    is strict.  A block that is visited as a statement has the violations of the two blocks,
    in every scope and at every place.  What was charged to an element of the second list is
    charged further behind. -/
theorem siblings_independent (A B : List Tree) :
    (∀ (strict : Bool) (p q r : Tree), p.HasBody .program A → q.HasBody .program B →
      r.HasBody .program (A ++ B) →
      (strict = true ∨ (p.MakesStrict ↔ r.MakesStrict) ∧ (q.MakesStrict ↔ r.MakesStrict)) →
      r.violations strict = (p.violations strict).map (.behind (.root r) 0) ++
        (q.violations strict).map (.behind (.root r) A.length)) ∧
    (∀ (scope : Scope) (trail : List Selector) (p q r : Tree), p.HasBody .blockStatement A →
      q.HasBody .blockStatement B → r.HasBody .blockStatement (A ++ B) →
      violations .node scope ⟨trail, r⟩ =
        (violations .node scope ⟨trail, p⟩).map (.behind ⟨trail, r⟩ 0) ++
          (violations .node scope ⟨trail, q⟩).map (.behind ⟨trail, r⟩ A.length)) := by
  constructor
  · intro strict p q r hp hq hr hagree
    rw [hp.violations_program, hq.violations_program, hr.violations_program,
      hp.ofBody_eq hr (hagree.imp_right And.left), hq.ofBody_eq hr (hagree.imp_right And.right)]
    exact violations_elements_append ..
  · intro scope trail p q r hp hq hr
    rw [hp.violations_block, hq.violations_block, hr.violations_block]
    exact violations_elements_append ..

/-- A statement that is no directive does not make a program strict. -/
theorem Tree.not_makesStrict_program {statement : Tree} {rest : List Tree}
    (h : Prologue.directive? statement = none) :
    ¬ (Tree.program (statement :: rest)).MakesStrict := by
  have hkind : (Tree.program (statement :: rest)).kind? = some .program := rfl
  rw [Tree.makesStrict_iff hkind]
  rintro ⟨body, hbody, hstrict⟩
  obtain rfl := Option.some.inj hbody
  obtain ⟨text, htext, -⟩ := Prologue.strict_cons_iff.1 hstrict
  rw [h] at htext
  cases htext

/-- A `break` that leaves nothing, in front of a hole: the hole is charged as the second
    element of the program, and of the block. -/
theorem break_before_hole :
    (Tree.program [.node .breakStatement [], .null]).violations false =
      ((Tree.program [.node .breakStatement []]).violations false).map
        (.behind (.root (.program [.node .breakStatement [], .null])) 0) ++
      ((Tree.program [.null]).violations false).map
        (.behind (.root (.program [.node .breakStatement [], .null])) 1) ∧
    violations .node (.root true) (.root (.block [.node .breakStatement [], .null])) =
      (violations .node (.root true) (.root (.block [.node .breakStatement []]))).map
        (.behind (.root (.block [.node .breakStatement [], .null])) 0) ++
      (violations .node (.root true) (.root (.block [.null]))).map
        (.behind (.root (.block [.node .breakStatement [], .null])) 1) ∧
    ((Tree.program [.null]).violations false).map
        (Violation.behind (.root (.program [.node .breakStatement [], .null])) 1) =
      [⟨.root (.program [.node .breakStatement [], .null]), .missing (.element "body" 1)⟩] := by
  have hbreak : Prologue.directive? (.node .breakStatement []) = none := by decide
  have hnull : Prologue.directive? .null = none := by decide
  have hstrict : ∀ statement rest, Prologue.directive? statement = none →
      ((Tree.program (statement :: rest)).MakesStrict ↔
        (Tree.program [.node .breakStatement [], .null]).MakesStrict) := fun _ _ h =>
    iff_of_false (Tree.not_makesStrict_program h) (Tree.not_makesStrict_program hbreak)
  refine ⟨?_, ?_, ?_⟩
  · exact (siblings_independent [.node .breakStatement []] [.null]).1 false _ _ _ ⟨rfl, rfl, rfl⟩
      ⟨rfl, rfl, rfl⟩ ⟨rfl, rfl, rfl⟩ (Or.inr ⟨hstrict _ _ hbreak, hstrict _ _ hnull⟩)
  · exact (siblings_independent [.node .breakStatement []] [.null]).2 _ _ _ _ _ ⟨rfl, rfl, rfl⟩
      ⟨rfl, rfl, rfl⟩ ⟨rfl, rfl, rfl⟩
  · rw [violations_program]
    rfl

end ScriptTree
