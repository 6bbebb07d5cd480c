/-
  The path to a visit, and the scope that it gives.

  * `Since`: a place was entered on a path, and not left again since.
  * `Tree.LoopBody`, `Tree.SwitchBody`, `Tree.FunctionBody`: the steps of a path that
    matter for jumps, read off the tree alone.
  * `Grammar.Way`: what the moves into a slot are, for every slot of every node.
  * `Tree.Visits.flag_iff`: a flag of the scope that is set by some steps and cleared by
    others says whether the path has one of the first since the last of the others.
-/
import ScriptTree.Proofs.Trail

namespace ScriptTree

/-! ## Paths -/

/-- A path has a step of one sort, and no step of another sort behind it. -/
def Since (on off : List Selector → Prop) (trail : List Selector) : Prop :=
  ∃ start, start <:+ trail ∧ on start ∧ ∀ later, later <:+ trail → start <:+ later → ¬ off later

theorem since_nil {on off : List Selector → Prop} : Since on off [] ↔ on [] ∧ ¬ off [] := by
  constructor
  · rintro ⟨start, hstart, hon, hoff⟩
    rw [List.suffix_nil] at hstart
    subst hstart
    exact ⟨hon, hoff [] List.suffix_rfl List.suffix_rfl⟩
  · rintro ⟨hon, hoff⟩
    refine ⟨[], List.suffix_rfl, hon, fun later hlater _ => ?_⟩
    rw [List.suffix_nil] at hlater
    exact hlater ▸ hoff

theorem since_cons {on off : List Selector → Prop} {a : Selector} {trail : List Selector} :
    Since on off (a :: trail) ↔
      ¬ off (a :: trail) ∧ (on (a :: trail) ∨ Since on off trail) := by
  constructor
  · rintro ⟨start, hstart, hon, hoff⟩
    refine ⟨hoff _ List.suffix_rfl hstart, ?_⟩
    rcases List.suffix_cons_iff.1 hstart with rfl | hstart
    · exact Or.inl hon
    · exact Or.inr ⟨start, hstart, hon,
        fun later hlater => hoff later (hlater.trans (List.suffix_cons _ _))⟩
  · rintro ⟨hnow, hon | ⟨start, hstart, hon, hoff⟩⟩
    · refine ⟨_, List.suffix_rfl, hon, fun later hlater hstart => ?_⟩
      rw [hlater.eq_of_length_le hstart.length_le]
      exact hnow
    · refine ⟨start, hstart.trans (List.suffix_cons _ _), hon, fun later hlater hlate => ?_⟩
      rcases List.suffix_cons_iff.1 hlater with rfl | hlater
      · exact hnow
      · exact hoff later hlater hlate

theorem since_or {on on' off : List Selector → Prop} {trail : List Selector} :
    Since (fun start => on start ∨ on' start) off trail ↔
      Since on off trail ∨ Since on' off trail := by
  constructor
  · rintro ⟨start, hstart, hon | hon, hoff⟩
    · exact Or.inl ⟨start, hstart, hon, hoff⟩
    · exact Or.inr ⟨start, hstart, hon, hoff⟩
  · rintro (⟨start, hstart, hon, hoff⟩ | ⟨start, hstart, hon, hoff⟩)
    · exact ⟨start, hstart, Or.inl hon, hoff⟩
    · exact ⟨start, hstart, Or.inr hon, hoff⟩

/-- If nothing leads out again, a place was entered on a path iff the path has its step. -/
theorem since_never {on : List Selector → Prop} {trail : List Selector} :
    Since on (fun _ => False) trail ↔ ∃ start, start <:+ trail ∧ on start := by
  constructor
  · rintro ⟨start, hstart, hon, -⟩
    exact ⟨start, hstart, hon⟩
  · rintro ⟨start, hstart, hon⟩
    exact ⟨start, hstart, hon, fun _ _ _ h => h⟩

namespace Tree

variable {t value : Tree} {kind : Kind} {name field : String} {above : List Selector}

/-- A path ends with the step from a node of a kind into a field. -/
def EntersField (t : Tree) (kind : Kind) (name : String) (trail : List Selector) : Prop :=
  ∃ above value, trail = .field name :: above ∧ t.at? above = some value ∧
    value.kind? = some kind

/-- A path ends with the step into the body of a loop. -/
def LoopBody (t : Tree) (trail : List Selector) : Prop :=
  ∃ kind : Kind, kind.isIteration = true ∧ t.EntersField kind "body" trail

/-- A path ends with the step into the statements of a case of a switch. -/
def SwitchBody (t : Tree) (trail : List Selector) : Prop :=
  t.EntersField .switchCase "consequent" trail

end Tree

/-- The kind of the functions of a form. -/
def Rule.FunctionForm.kind : Rule.FunctionForm → Kind
  | .declaration => .functionDeclaration
  | .expression => .functionExpression

namespace Tree

/-- A path ends with the step into the body of a function, which is a block. -/
def FunctionBody (t : Tree) (form : Rule.FunctionForm) (trail : List Selector) : Prop :=
  t.EntersField form.kind "body" trail ∧ t.at? trail >>= kind? = some .blockStatement

variable {t value : Tree} {kind : Kind} {name field : String} {above : List Selector}

theorem EntersField.exists_eq {trail : List Selector} (h : t.EntersField kind name trail) :
    ∃ above, trail = .field name :: above := by
  obtain ⟨above, _, htrail, -⟩ := h
  exact ⟨above, htrail⟩

theorem field_of_functionBody {form : Rule.FunctionForm} {trail : List Selector}
    (h : t.FunctionBody form trail) : ∃ above, trail = .field "body" :: above :=
  h.1.exists_eq

section
variable (hat : t.at? above = some value) (hkind : value.kind? = some kind)
include hat hkind

theorem entersField_cons_iff {k : Kind} :
    t.EntersField k name (.field field :: above) ↔ field = name ∧ kind = k := by
  constructor
  · rintro ⟨above', value', htrail, hat', hkind'⟩
    obtain ⟨hfield, rfl⟩ := List.cons.inj htrail
    obtain rfl := Option.some.inj (hat.symm.trans hat')
    exact ⟨Selector.field.inj hfield, Option.some.inj (hkind.symm.trans hkind')⟩
  · rintro ⟨rfl, rfl⟩
    exact ⟨above, value, rfl, hat, hkind⟩

theorem loopBody_cons_iff :
    t.LoopBody (.field field :: above) ↔ field = "body" ∧ kind.isIteration = true := by
  simp only [LoopBody, entersField_cons_iff hat hkind]
  constructor
  · rintro ⟨k, hk, hfield, rfl⟩
    exact ⟨hfield, hk⟩
  · rintro ⟨hfield, hk⟩
    exact ⟨kind, hk, hfield, rfl⟩

theorem functionBody_cons_iff {form : Rule.FunctionForm} :
    t.FunctionBody form (.field field :: above) ↔
      field = "body" ∧ kind = form.kind ∧
        value.child? "body" >>= kind? = some .blockStatement := by
  have hchild : (t.at? (.field "body" :: above) >>= kind?) = (value.child? "body" >>= kind?) := by
    simp only [at?, hat, Option.bind_some, Option.bind_eq_bind, select?, child?]
    split
    · next h => rw [h]; rfl
    · rfl
  rw [FunctionBody, entersField_cons_iff hat hkind, and_assoc]
  constructor
  · rintro ⟨rfl, hk, hblock⟩
    exact ⟨rfl, hk, hchild ▸ hblock⟩
  · rintro ⟨rfl, hk, hblock⟩
    exact ⟨rfl, hk, hchild ▸ hblock⟩

end

end Tree

/-! ## The moves into the slots -/

namespace Grammar

open Slot

/-- A field of a node of a kind into which no move leads. -/
structure Plain (t : Tree) (kind : Kind) (field : String) : Prop where
  program : kind ≠ .program
  loop : field = "body" → kind.isIteration = false
  label : kind = .labeledStatement → field ≠ "body"
  switch : kind = .switchCase → field ≠ "consequent"
  function : ∀ form : Rule.FunctionForm, kind = form.kind →
    field = "body" ∧ t.child? "body" >>= Tree.kind? ≠ some .blockStatement

/-- The moves into a slot of a node. -/
inductive Way (t : Tree) (s : Slot) : Kind → Prop
  | loop {kind : Kind} : kind.isIteration = true → s.field = "body" → s.role = .node →
      s.moves = [.iteration] → Way t s kind
  | switch : s.field = "consequent" → s.role = .node → s.moves = [.switch] → Way t s .switchCase
  | label : s.field = "body" → s.role = .node → s.moves = labelMoves t →
      Way t s .labeledStatement
  | program : s.field = "body" → s.role = .node →
      s.moves = strictMoves (t.child? "body" >>= Tree.elements?) → Way t s .program
  | ownCode (form : Rule.FunctionForm) : s.field = "id" ∨ s.field = "params" → s.role = .node →
      s.moves = strictMoves (Rule.bodyStatements? t) → Way t s form.kind
  | functionBody (form : Rule.FunctionForm) : s.field = "body" → s.shape = .one →
      s.role = .functionBody → t.child? "body" >>= Tree.kind? = some .blockStatement →
      s.moves = strictMoves (Rule.bodyStatements? t) ++ [form.bodyMove] → Way t s form.kind
  | plain {kind} : s.role = .node → s.moves = [] → Plain t kind s.field → Way t s kind

theorem way_of_mem_functionSlots {t : Tree} {s : Slot} (form : Rule.FunctionForm)
    (hs : s ∈ functionSlots form t) : Way t s form.kind := by
  simp only [functionSlots, List.mem_cons, List.not_mem_nil, or_false] at hs
  rcases hs with rfl | rfl | rfl
  · cases form with
    | declaration => exact .ownCode .declaration (Or.inl rfl) rfl rfl
    | expression => exact .ownCode .expression (Or.inl rfl) rfl rfl
  · exact .ownCode form (Or.inr rfl) rfl rfl
  · unfold bodySlot
    split
    · next hblock => exact .functionBody form rfl rfl rfl hblock rfl
    · next hblock =>
      refine .plain rfl rfl ⟨?_, ?_, ?_, ?_, fun _ _ => ⟨rfl, hblock⟩⟩
      all_goals cases form <;> simp [Rule.FunctionForm.kind, Kind.isIteration]

/-- The kinds of nodes that have a slot behind a move. -/
def hasMoves : Kind → Bool
  | .program | .labeledStatement | .switchCase | .functionExpression | .functionDeclaration
  | .doWhileStatement | .forInStatement | .forStatement | .whileStatement => true
  | _ => false

theorem slots_of_not_hasMoves {t : Tree} {kind : Kind} (h : hasMoves kind = false) :
    ∀ s ∈ slotsOfKind t kind, s.role = .node ∧ s.moves = [] := by
  cases kind with
  | program | labeledStatement | switchCase | functionExpression | functionDeclaration
  | doWhileStatement | forInStatement | forStatement | whileStatement => cases h
  | memberExpression =>
    simp only [slotsOfKind]
    split <;> simp [one]
  | tryStatement =>
    simp only [slotsOfKind, catchSlot]
    split <;> simp [one, maybe, list]
  | _ => simp [slotsOfKind, one, maybe, list]

theorem plain_of_not_hasMoves {t : Tree} {kind : Kind} (h : hasMoves kind = false)
    (field : String) : Plain t kind field := by
  constructor
  · rintro rfl
    cases h
  · intro _
    cases kind with
    | doWhileStatement | forInStatement | forStatement | whileStatement => cases h
    | _ => rfl
  · rintro rfl
    cases h
  · rintro rfl
    cases h
  · rintro form rfl
    cases form <;> cases h

theorem slots_of_loop {t : Tree} {kind : Kind} (h : kind.isIteration = true) :
    ∀ s ∈ slotsOfKind t kind,
      s = loopSlot ∨ s.field ≠ "body" ∧ s.role = .node ∧ s.moves = [] := by
  cases kind with
  | doWhileStatement | forInStatement | forStatement | whileStatement =>
    simp [slotsOfKind, one, maybe]
  | _ => cases h

/-- Every slot of a loop but its body is plain. -/
theorem way_of_loop {t : Tree} {kind : Kind} {s : Slot} (hkind : kind.isIteration = true)
    (hs : s ∈ slotsOfKind t kind) : Way t s kind := by
  rcases slots_of_loop hkind s hs with rfl | ⟨hfield, hrole, hmoves⟩
  · exact .loop hkind rfl rfl rfl
  · refine .plain hrole hmoves ⟨?_, fun h => absurd h hfield, fun _ => hfield, ?_, ?_⟩
    · rintro rfl
      cases hkind
    · rintro rfl
      cases hkind
    · rintro form rfl
      cases form <;> cases hkind

/-- **Every slot is behind the moves of its way.** -/
theorem way_of_mem_slotsOfKind {t : Tree} {kind : Kind} {s : Slot}
    (hs : s ∈ slotsOfKind t kind) : Way t s kind := by
  by_cases hmoves : hasMoves kind = false
  · obtain ⟨hrole, hnone⟩ := slots_of_not_hasMoves hmoves s hs
    exact .plain hrole hnone (plain_of_not_hasMoves hmoves s.field)
  cases kind with
  | program =>
    obtain rfl := List.mem_singleton.1 hs
    exact .program rfl rfl rfl
  | functionExpression => exact way_of_mem_functionSlots .expression hs
  | functionDeclaration => exact way_of_mem_functionSlots .declaration hs
  | labeledStatement =>
    simp only [slotsOfKind, List.mem_cons, List.not_mem_nil, or_false] at hs
    rcases hs with rfl | rfl
    · refine .plain rfl rfl ⟨by simp, by simp [one], by simp [one], by simp, ?_⟩
      intro form h
      cases form <;> cases h
    · exact .label rfl rfl rfl
  | switchCase =>
    simp only [slotsOfKind, List.mem_cons, List.not_mem_nil, or_false] at hs
    rcases hs with rfl | rfl
    · refine .plain rfl rfl ⟨by simp, by simp [maybe], by simp, by simp [maybe], ?_⟩
      intro form h
      cases form <;> cases h
    · exact .switch rfl rfl rfl
  | doWhileStatement | forInStatement | forStatement | whileStatement =>
    exact way_of_loop rfl hs
  | _ => exact absurd rfl hmoves

/-! ### The scope behind the moves -/

theorem enter_strictMoves (body : Option (List Tree)) (outer : Scope) :
    (strictMoves body).foldl Scope.enter outer =
      { outer with strict := outer.strict || body.any Prologue.usesStrict } := by
  rw [Rule.foldl_strictMoves]
  split
  · next h => simp [h, Scope.enter]
  · next h => simp [h]

theorem enter_labelMoves (statement : Tree) (outer : Scope) :
    (labelMoves statement).foldl Scope.enter outer =
      { outer with
        labels := (statement.child? "label" >>= Tree.identifierName?).toList ++ outer.labels } := by
  unfold labelMoves
  split
  · next h => rw [h]; rfl
  · next h => rw [h]; rfl

/-- The step into a field leads from a function of a form to its body, which is a block. -/
def EntersFunction (t : Tree) (kind : Kind) (field : String) (form : Rule.FunctionForm) : Prop :=
  field = "body" ∧ kind = form.kind ∧ t.child? "body" >>= Tree.kind? = some .blockStatement

theorem not_entersFunction {t : Tree} {kind : Kind} {field : String}
    (hdeclaration : kind ≠ .functionDeclaration) (hexpression : kind ≠ .functionExpression)
    (form : Rule.FunctionForm) :
    ¬ EntersFunction t kind field form := by
  rintro ⟨-, hkind, -⟩
  cases form with
  | declaration => exact hdeclaration hkind
  | expression => exact hexpression hkind

end Grammar

/-! ## The scope at a visit -/

namespace Tree.Visits

variable {strict : Bool} {t : Tree} {v w : Visit}

/-- Only a block is visited as the body of a function. -/
theorem kind_of_functionBody (h : t.Visits strict v) (hrole : v.role = .functionBody) :
    v.occurrence.value.kind? = some .blockStatement := by
  induction h with
  | refl => cases hrole
  | @tail u w hu hnext ih =>
    obtain ⟨s, hs, hholds, hsrole, -⟩ := Visit.exists_slot_of_mem_next hnext
    rw [hrole] at hsrole
    unfold Visit.slots at hs
    split at hs
    · cases hs
    · next kind hkind =>
      cases hurole : u.role with
      | functionBody =>
        rw [hurole] at hs
        obtain rfl := List.mem_singleton.1 hs
        cases hsrole
      | node =>
        rw [hurole] at hs
        cases Grammar.way_of_mem_slotsOfKind hs with
        | functionBody form hfield hshape _ hblock _ =>
          have hc := hholds.child?_eq (Or.inl hshape)
          rw [hfield] at hc
          rw [(Occurrence.child?_eq_some_iff.1 hc).1] at hblock
          exact hblock
        | loop _ _ h | switch _ h | label _ h | program _ h | ownCode _ _ h | plain h =>
          rw [h] at hsrole
          cases hsrole

theorem role_eq_node {kind : Kind} (h : t.Visits strict v)
    (hkind : v.occurrence.value.kind? = some kind) (hne : kind ≠ .blockStatement) :
    v.role = .node := by
  cases hrole : v.role with
  | node => rfl
  | functionBody =>
    exact absurd (Option.some.inj (hkind.symm.trans (h.kind_of_functionBody hrole))) hne

/-- What a visit asks for is in a slot, behind the moves of its way. -/
theorem exists_way (h : t.Visits strict v) (hnext : w ∈ v.next) :
    ∃ kind s, v.occurrence.value.kind? = some kind ∧ Grammar.Way v.occurrence.value s kind ∧
      s.Holds v.occurrence w.occurrence ∧ w.role = s.role ∧ w.scope = s.scope v.scope := by
  obtain ⟨s, hs, hholds, hrole, hscope⟩ := Visit.exists_slot_of_mem_next hnext
  unfold Visit.slots at hs
  split at hs
  · cases hs
  · next kind hkind =>
    refine ⟨kind, s, hkind, ?_, hholds, hrole, hscope⟩
    cases hvrole : v.role with
    | node =>
      rw [hvrole] at hs
      exact Grammar.way_of_mem_slotsOfKind hs
    | functionBody =>
      rw [hvrole] at hs
      obtain rfl := List.mem_singleton.1 hs
      obtain rfl := Option.some.inj (hkind.symm.trans (h.kind_of_functionBody hvrole))
      exact .plain rfl rfl (Grammar.plain_of_not_hasMoves rfl _)

/-- The role of the body of a function is that of the path. -/
theorem functionBody_of_role (h : t.Visits strict v) (hrole : v.role = .functionBody) :
    ∃ form, t.FunctionBody form v.trail := by
  rcases h.eq_root_or with rfl | ⟨u, hu, hnext⟩
  · cases hrole
  · obtain ⟨kind, s, hkind, hway, hholds, hsrole, -⟩ := exists_way hu hnext
    rw [hrole] at hsrole
    cases hway with
    | functionBody form hfield hshape _ hblock _ =>
      have hchild := hholds.child?_eq (Or.inl hshape)
      have htrail : v.trail = .field s.field :: u.trail :=
        (Occurrence.child?_eq_some_iff.1 hchild).2
      refine ⟨form, ?_⟩
      rw [htrail, functionBody_cons_iff hu.at? hkind]
      exact ⟨hfield, rfl, hblock⟩
    | loop _ _ h | switch _ h | label _ h | program _ h | ownCode _ _ h | plain h =>
      rw [h] at hsrole
      cases hsrole

section
variable {on off : List Selector → Prop}
  (hfield : ∀ trail, on trail ∨ off trail →
    ∃ name above, trail = .field name :: above ∧ name ≠ "value")
include hfield

/-- The way from the field of a slot to what it holds does not count. -/
theorem since_of_holds {s : Slot} {o c : Occurrence} (h : s.Holds o c) :
    Since on off c.trail ↔ Since on off (.field s.field :: o.trail) := by
  have helement : ∀ index trail,
      Since on off (.element index :: trail) ↔ Since on off trail := by
    intro index trail
    have hnot : ¬ (on (.element index :: trail) ∨ off (.element index :: trail)) := by
      intro h
      obtain ⟨name, above, htrail, -⟩ := hfield _ h
      cases htrail
    rw [since_cons]
    tauto
  have hvalue : ∀ trail, Since on off (.field "value" :: trail) ↔ Since on off trail := by
    intro trail
    have hnot : ¬ (on (.field "value" :: trail) ∨ off (.field "value" :: trail)) := by
      intro h
      obtain ⟨name, above, htrail, hname⟩ := hfield _ h
      cases htrail
      exact hname rfl
    rw [since_cons]
    tauto
  rcases h with ⟨-, hc⟩ | ⟨-, -, -⟩ | ⟨-, -, hc⟩
  · rw [(Occurrence.child?_eq_some_iff.1 hc).2]
  · exact helement _ _
  · rw [(Occurrence.child?_eq_some_iff.1 hc).2, hvalue]
    exact helement _ _

/-- **A flag of the scope says what lies on the path.**  If every way into a slot sets a
    flag, clears it or keeps it as the step into its field says, the flag holds at a visit
    iff its path has a step that sets the flag, and none behind it that clears it. -/
theorem flag_iff {flag : Scope → Bool} (hroot : flag (.root strict) = false)
    (hway : ∀ {kind : Kind} {s : Slot} {above : List Selector} {value : Tree} (outer : Scope),
      t.at? above = some value → value.kind? = some kind → Grammar.Way value s kind →
      (flag (s.scope outer) = true ↔ ¬ off (.field s.field :: above) ∧
        (on (.field s.field :: above) ∨ flag outer = true)))
    (h : t.Visits strict v) : flag v.scope = true ↔ Since on off v.trail := by
  induction h with
  | refl =>
    have hnone : ¬ (on [] ∨ off []) := by
      intro h
      obtain ⟨name, above, htrail, -⟩ := hfield _ h
      cases htrail
    show flag (.root strict) = true ↔ Since on off []
    rw [hroot, since_nil]
    simp only [Bool.false_eq_true, false_iff]
    tauto
  | @tail u w hu hnext ih =>
    obtain ⟨kind, s, hkind, hs, hholds, -, hscope⟩ := exists_way hu hnext
    show flag w.scope = true ↔ Since on off w.occurrence.trail
    rw [since_of_holds hfield hholds, since_cons, hscope, hway u.scope (Visits.at? hu) hkind hs, ih]
    rfl

end

end Tree.Visits

end ScriptTree
