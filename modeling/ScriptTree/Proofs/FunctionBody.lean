/-
  The body of a function beside the body of a program.

  * `Tree.program`, `Tree.function`: a program and a function without parameters that have
    the same body.
  * `violations_program`, `violations_function`: what is charged in them is charged in the
    elements of the body.
  * `functionBody_like_program`: the function has the violations of the program, but for
    return statements.
-/
import ScriptTree.Proofs.Relocation
import ScriptTree.Proofs.Trail

namespace ScriptTree

namespace Tree

/-- A program. -/
def program (body : List Tree) : Tree := .node .program [("body", .array body)]

/-- A block. -/
def block (body : List Tree) : Tree := .node .blockStatement [("body", .array body)]

/-- A function without parameters, with or without a name. -/
def function (form : Rule.FunctionForm) (name : Option String) (body : List Tree) : Tree :=
  .node form.kind
    ((name.map fun name => ("id", named name)).toList ++
      [("params", .array []), ("body", block body)])

/-- An expression as a statement. -/
def statement (expression : Tree) : Tree :=
  .node .expressionStatement [("expression", expression)]

end Tree

/-! ## Where the violations come from -/

/-- The scope in the body of a program. -/
def Scope.ofBody (strict : Bool) (body : List Tree) : Scope :=
  .root (strict || Prologue.usesStrict body)

/-- A body that starts with something else than a directive is as strict as its program. -/
theorem Scope.ofBody_cons (strict : Bool) {statement : Tree} (rest : List Tree)
    (h : Prologue.directive? statement = none) :
    ofBody strict (statement :: rest) = .root strict := by
  simp [ofBody, Prologue.usesStrict, h]

/-- A program whose body is a list is charged with the faults of its location, and then in
    the elements of its body. -/
theorem violations_of_program {t : Tree} {body : List Tree} (hkind : t.kind? = some .program)
    (hbody : t.child? "body" = some (.array body)) (strict : Bool) :
    t.violations strict =
      (Steps.locationFaults t).map (fun f => ⟨.root t, f⟩) ++
        (Steps.elements (.root t) "body" .sourceElement false (.ofBody strict body)
          body).flatMap Step.violations := by
  have hscope : (if Prologue.usesStrict body then (Scope.root strict).enter .strict
      else .root strict) = .ofBody strict body := by
    cases strict <;> cases hstrict : Prologue.usesStrict body <;>
      simp [Scope.ofBody, hstrict] <;> rfl
  have hrule : Rule.program (.root t) (.root strict) =
      Steps.elements (.root t) "body" .sourceElement false (.ofBody strict body) body := by
    simp only [Rule.program, Steps.withList, Occurrence.root, hbody, Tree.elements?, hscope]
  rw [Tree.violations, violations_eq]
  simp only [Occurrence.root, Tree.nodeKind_eq_ok_iff.2 hkind]
  rw [rule, List.flatMap_append]
  refine congrArg₂ (· ++ ·) ?_ (congrArg (List.flatMap _) hrule)
  rw [Steps.location, List.flatMap_map]
  exact List.map_eq_flatMap.symm

theorem violations_program (strict : Bool) (body : List Tree) :
    (Tree.program body).violations strict =
      (Steps.elements (.root (.program body)) "body" .sourceElement false (.ofBody strict body)
        body).flatMap Step.violations :=
  violations_of_program (t := .program body) rfl rfl strict

theorem violations_block (scope : Scope) (trail : List Selector) (body : List Tree) :
    violations .functionBody scope ⟨trail, .block body⟩ =
      (Steps.elements ⟨trail, .block body⟩ "body" .sourceElement false scope body).flatMap
        Step.violations :=
  violations_eq _ _ _

/-- A list of one node that is in its place is charged with what is wrong with the node. -/
theorem violations_elements_singleton {o : Occurrence} {name : String} {category : Category}
    {scope : Scope} {value : Tree} {kind : Kind} (hkind : value.kind? = some kind)
    (hcategory : category.contains kind = true) :
    (Steps.elements o name category false scope [value]).flatMap Step.violations =
      violations .node scope (o.element name 0 value) := by
  have hnull : value ≠ .null := by
    rintro rfl
    cases hkind
  simp only [Steps.elements, List.zipIdx_singleton, List.flatMap_singleton]
  rw [Steps.element_of_ne_null _ hnull, Steps.present]
  simp [hkind, hcategory, Steps.faultIf, Step.violations, Occurrence.element]

theorem violations_program_singleton (strict : Bool) {statement : Tree} {kind : Kind}
    (hkind : statement.kind? = some kind) (hcategory : Category.sourceElement.contains kind = true)
    (hdirective : Prologue.directive? statement = none) :
    (Tree.program [statement]).violations strict =
      violations .node (.root strict) ⟨[.element 0, .field "body"], statement⟩ := by
  rw [violations_program, Scope.ofBody_cons strict [] hdirective,
    violations_elements_singleton hkind hcategory]
  rfl

/-! ### Functions -/

theorem functionScope_function (form : Rule.FunctionForm) (name : Option String)
    (body : List Tree) (strict : Bool) :
    Rule.functionScope (.function form name body) (.root strict) = .ofBody strict body := by
  have hbody : Rule.bodyStatements? (.function form name body) = some body := by
    cases form <;> cases name <;> rfl
  rw [Rule.functionScope, Rule.isStrictFunction, hbody]
  cases strict <;> cases h : Prologue.usesStrict body <;>
    simp [Scope.ofBody, h, Scope.root, Scope.enter]

theorem violations_named_f (scope : Scope) (trail : List Selector) :
    violations .node scope ⟨trail, .named "f"⟩ = [] := by
  have hfault : ∀ strict, Identifier.fault? strict (some (.string "f")) = none := by decide
  rw [violations_eq]
  show ((Identifier.fault? scope.strict (some (.string "f"))).toList.flatMap _).flatMap _ = []
  rw [hfault]
  rfl

/-- Nothing is wrong with the name `f`, nor with no name where none is needed. -/
theorem violations_functionName (form : Rule.FunctionForm) {name : Option String}
    (hname : name = some "f" ∨ form = .expression ∧ name = none) (body : List Tree)
    (trail : List Selector) (scope : Scope) :
    (Rule.functionName form ⟨trail, .function form name body⟩ scope).flatMap
      Step.violations = [] := by
  rcases hname with rfl | ⟨rfl, rfl⟩
  · have hbinding : Steps.binding ⟨trail, .function form (some "f") body⟩ scope
        (some (.named "f")) = [] := by
      unfold Steps.binding
      split <;> rfl
    have hsteps : Rule.functionName form ⟨trail, .function form (some "f") body⟩ scope =
        Step.visit .node scope ⟨.field "id" :: trail, .named "f"⟩ ::
          Steps.binding ⟨trail, .function form (some "f") body⟩ scope (some (.named "f")) := by
      cases form <;> rfl
    rw [hsteps, hbinding]
    simp [Step.violations, violations_named_f]
  · have hbinding : Steps.binding ⟨trail, .function .expression none body⟩ scope none = [] := by
      unfold Steps.binding
      split <;> rfl
    show (Steps.binding ⟨trail, .function .expression none body⟩ scope none).flatMap _ = []
    rw [hbinding]
    rfl

/-- In a function without parameters whose name is allowed, only the body is charged. -/
theorem violations_function (form : Rule.FunctionForm) {name : Option String}
    (hname : name = some "f" ∨ form = .expression ∧ name = none) (strict : Bool)
    (trail : List Selector) (body : List Tree) :
    violations .node (.root strict) ⟨trail, .function form name body⟩ =
      violations .functionBody ((Scope.ofBody strict body).enter form.bodyMove)
        ⟨.field "body" :: trail, .block body⟩ := by
  have hkind : (Tree.function form name body).nodeKind = .ok form.kind := by
    cases form <;> cases name <;> rfl
  have hrule : rule .node (.root strict) ⟨trail, .function form name body⟩ form.kind =
      Rule.function form ⟨trail, .function form name body⟩ (.root strict) := by
    cases form <;> cases name <;> rfl
  have hparameters : ∀ scope, Rule.parameters ⟨trail, .function form name body⟩ scope = [] := by
    intro scope
    have hlist : (Tree.function form name body).child? "params" = some (.array []) := by
      cases form <;> cases name <;> rfl
    simp only [Rule.parameters, Steps.withList, hlist, Tree.elements?]
    cases scope.strict <;> rfl
  have hbody : ∀ outer inner, Rule.functionBody ⟨trail, .function form name body⟩ outer inner =
      [.visit .functionBody inner ⟨.field "body" :: trail, .block body⟩] := by
    intro outer inner
    cases form <;> cases name <;> rfl
  rw [violations_eq]
  simp [hkind, hrule, Rule.function, functionScope_function, hparameters, hbody,
    violations_functionName form hname, Step.violations]

theorem violations_statement_function (scope : Scope) (trail : List Selector)
    (name : Option String) (body : List Tree) :
    violations .node scope ⟨trail, .statement (.function .expression name body)⟩ =
      violations .node scope ⟨.field "expression" :: trail, .function .expression name body⟩ := by
  have hsteps : rule .node scope ⟨trail, .statement (.function .expression name body)⟩
      .expressionStatement =
        [.visit .node scope ⟨.field "expression" :: trail, .function .expression name body⟩] := by
    cases name <;> rfl
  rw [violations_eq]
  show (rule .node scope _ .expressionStatement).flatMap _ = _
  rw [hsteps]
  exact List.flatMap_singleton ..

/-! ## The two bodies -/

namespace Violation

/-- A violation of a program, at the corresponding place of a block: what is charged to the
    program itself is charged to the block. -/
def inBlock (block : Occurrence) (w : Violation) : Violation :=
  ⟨⟨w.owner.trail ++ block.trail, if w.owner.trail = [] then block.value else w.owner.value⟩,
    w.fault⟩

/-- The violations of a program, as those of a block that is the body of a function. -/
def inFunction (block : Occurrence) (vs : List Violation) : List Violation :=
  (vs.filter fun w => w.fault ≠ .returnOutside).map (inBlock block)

/-- The violation in the block, if it remains one. -/
def inFunction? (block : Occurrence) (w : Violation) : Option Violation :=
  if w.fault = .returnOutside then none else some (w.inBlock block)

theorem inFunction_eq (block : Occurrence) (vs : List Violation) :
    inFunction block vs = vs.filterMap (inFunction? block) := by
  rw [inFunction, ← List.filterMap_eq_map, List.filterMap_filter]
  refine List.filterMap_congr fun w _ => ?_
  by_cases h : w.fault = .returnOutside <;> simp [h, inFunction?]

theorem inFunction?_of_ne_root (block : Occurrence) {w : Violation} (h : w.owner.trail ≠ []) :
    inFunction? block w = (⟨block.trail, true⟩ : Relocation).violation? w := by
  by_cases hfault : w.fault = .returnOutside <;>
    simp [inFunction?, inBlock, Relocation.violation?, Relocation.keeps, Relocation.occurrence,
      hfault, h]

end Violation

/-- **A block as the body of a function has the violations of a program with the same body**,
    at its own place, without those of return statements. -/
theorem violations_block_eq (form : Rule.FunctionForm) (strict : Bool) (trail : List Selector)
    (body : List Tree) :
    violations .functionBody ((Scope.ofBody strict body).enter form.bodyMove)
        ⟨trail, .block body⟩ =
      Violation.inFunction ⟨trail, .block body⟩ ((Tree.program body).violations strict) := by
  let scope := Scope.ofBody strict body
  let block : Occurrence := ⟨trail, .block body⟩
  let program : Occurrence := .root (.program body)
  have hscope : scope.enter form.bodyMove = (⟨trail, true⟩ : Relocation).scope scope := by
    cases form <;> rfl
  have hmissing : ∀ index, Violation.inFunction? block ⟨program, .missing (.element "body" index)⟩ =
      some ⟨block, .missing (.element "body" (index + 0))⟩ := fun _ => rfl
  have hmisplaced : ∀ index kind,
      Violation.inFunction? block
          ⟨program, .misplaced (.element "body" index) .sourceElement kind⟩ =
        some ⟨block, .misplaced (.element "body" (index + 0)) .sourceElement kind⟩ :=
    fun _ _ => rfl
  have hvisit : ∀ index value,
      violations .node (scope.enter form.bodyMove) (block.element "body" (index + 0) value) =
        (violations .node scope (program.element "body" index value)).filterMap
          (Violation.inFunction? block) := by
    intro index value
    rw [hscope]
    refine (violations_relocated ⟨trail, true⟩ .node scope
      (program.element "body" index value)).trans ?_
    refine List.filterMap_congr fun w hw =>
      (Violation.inFunction?_of_ne_root block fun hroot => ?_).symm
    -- what is charged below an element is not charged to the program
    have hsuffix := Visit.suffix_of_mem_violations (v := ⟨.node, scope, _⟩) hw
    rw [hroot] at hsuffix
    cases List.suffix_nil.1 hsuffix
  rw [Violation.inFunction_eq, violations_program, violations_block]
  exact violations_elements hmissing hmisplaced hvisit body 0

/-- **The body of a function is like the body of a program.**  A program that consists of a
    function without parameters, declared or as an expression, has the violations of the
    program with the same body in the same order, without those of returns outside of
    functions.  They are at the corresponding places below the block, and the block is
    charged with what the program was charged with. -/
theorem functionBody_like_program (strict : Bool) (body : List Tree) :
    (Tree.program [.function .declaration (some "f") body]).violations strict =
      Violation.inFunction ⟨[.field "body", .element 0, .field "body"], .block body⟩
        ((Tree.program body).violations strict) ∧
    (Tree.program [.statement (.function .expression (some "f") body)]).violations strict =
      Violation.inFunction
        ⟨[.field "body", .field "expression", .element 0, .field "body"], .block body⟩
        ((Tree.program body).violations strict) ∧
    (Tree.program [.statement (.function .expression none body)]).violations strict =
      Violation.inFunction
        ⟨[.field "body", .field "expression", .element 0, .field "body"], .block body⟩
        ((Tree.program body).violations strict) := by
  have hstatement : ∀ name, name = some "f" ∨ name = none →
      (Tree.program [.statement (.function .expression name body)]).violations strict =
        Violation.inFunction
          ⟨[.field "body", .field "expression", .element 0, .field "body"], .block body⟩
          ((Tree.program body).violations strict) := by
    intro name hname
    have hdirective :
        Prologue.directive? (.statement (.function .expression name body)) = none := by
      cases name <;> rfl
    rw [violations_program_singleton strict rfl rfl hdirective, violations_statement_function,
      violations_function .expression (hname.imp_right fun h => ⟨rfl, h⟩),
      violations_block_eq .expression]
  refine ⟨?_, hstatement _ (Or.inl rfl), hstatement _ (Or.inr rfl)⟩
  rw [violations_program_singleton strict rfl rfl rfl,
    violations_function .declaration (Or.inl rfl), violations_block_eq .declaration]

end ScriptTree
