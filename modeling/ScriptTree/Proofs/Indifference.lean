/-
  Changes of a tree that make no difference.

  * `Tree.FoundSame`: two trees that are valid alike, and of which the same is found.
  * `unread_indifferent`: fields that are not read are changed, and fields are permuted.
  * `nulls_indifferent`: fields that hold `null` are left out.
  * `clauses_listed`: single catch clauses are put in lists; a catch clause beside a list of
    them is changed.
-/
import ScriptTree.Proofs.FunctionBody
import ScriptTree.Proofs.Reporter
import ScriptTree.Proofs.RulesAlike

namespace ScriptTree

/-! ## The changes -/

namespace Edits

/-- Fields that are not read are added, removed or changed. -/
def unread : Edits where
  field p t name _ _ := (p.reads t).lookup name = none
  listsClauses := false

/-- Fields that hold `null` are left out, but for the value of a literal. -/
def nulls : Edits where
  field _ t name old new :=
    old = some .null ∧ new = none ∧ ¬ (name = "value" ∧ t.typeName? = some "Literal")
  listsClauses := false

/-- Single catch clauses are put in lists, and nothing else is changed. -/
def listed : Edits where
  field _ _ _ _ _ := False
  listsClauses := true

/-- Single catch clauses beside a list of them are added, removed or changed. -/
def besideLists : Edits where
  field _ t name _ _ :=
    name = "handler" ∧ t.kind? = some .tryStatement ∧ (t.child? "handlers").isSome
  listsClauses := false

theorem harmless_unread : unread.Harmless := fun _ _ _ _ _ => Or.inl

theorem harmless_nulls : nulls.Harmless := by
  rintro p t name _ _ ⟨rfl, rfl, hvalue⟩
  refine Or.inr ⟨Or.inr rfl, Or.inl rfl, fun ⟨hname, hliteral⟩ => hvalue ⟨hname, ?_⟩⟩
  obtain ⟨type, htype, hkind⟩ := Option.bind_eq_some_iff.1 hliteral
  rw [htype, ← Kind.ofName?_eq_some_iff.1 hkind]
  rfl

theorem harmless_listed : listed.Harmless := fun _ _ _ _ _ => False.elim

theorem harmless_besideLists : besideLists.Harmless := by
  rintro p t name _ _ ⟨rfl, hkind, hlist⟩
  refine Or.inl ?_
  cases p with
  | node =>
    rw [Place.reads, hkind, Option.map_some, Grammar.fieldsOfKind, hlist]
    rfl
  | _ => rfl

end Edits

/-! ## What remains the same -/

namespace Tree

/-- Two trees that are valid alike, and of which the same is found at the same places and in
    the same order. -/
structure FoundSame (strict : Bool) (t t' : Tree) : Prop where
  isValid_eq : t'.isValid strict = t.isValid strict
  isValidExpression_eq : t'.isValidExpression strict = t.isValidExpression strict
  findings_eq : (t'.violations strict).map Violation.finding =
    (t.violations strict).map Violation.finding
  messages_eq : (t'.violations strict).map Violation.message =
    (t.violations strict).map Violation.message

variable {e : Edits} {t t' : Tree}

theorem Edited.accepted_eq (he : e.Harmless) (h : t.Edited e .node t') (strict : Bool) :
    t'.accepted strict = t.accepted strict := by
  have hfindings := findings_edited he h strict
  rw [Bool.eq_iff_iff, accepted_iff, accepted_iff, ← List.map_eq_nil_iff (f := Violation.finding),
    hfindings, List.map_eq_nil_iff]

theorem Edited.isValid_eq (he : e.Harmless) (h : t.Edited e .node t') (strict : Bool) :
    t'.isValid strict = t.isValid strict := by
  rw [isValid, isValid, h.accepted_eq he, h.kind?_eq he.mild rfl]

theorem Edited.isValidExpression_eq (he : e.Harmless) (h : t.Edited e .node t')
    (strict : Bool) : t'.isValidExpression strict = t.isValidExpression strict := by
  rw [isValidExpression, isValidExpression, h.accepted_eq he, h.kind?_eq he.mild rfl]

/-- Harmless changes that move no catch clause make no difference. -/
theorem Edited.foundSame (he : e.Harmless) (hlists : e.listsClauses = false)
    (h : t.Edited e .node t') (strict : Bool) : t.FoundSame strict t' := by
  have hfindings : (t'.violations strict).map Violation.finding =
      (t.violations strict).map Violation.finding := by
    rw [findings_edited he h strict]
    simp only [Finding.after, hlists, Bool.false_eq_true, if_false]
  have hmessage : Violation.message = Finding.message ∘ Violation.finding := rfl
  refine ⟨h.isValid_eq he strict, h.isValidExpression_eq he strict, hfindings, ?_⟩
  rw [hmessage, ← List.map_map, hfindings, List.map_map]

end Tree

/-- A program is changed in its statements. -/
theorem Tree.Edited.program {e : Edits} {body body' : List Tree}
    (h : List.Forall₂ (Edited e .node) body body') :
    (Tree.program body).Edited e .node (.program body') := by
  refine .of_keys ["type", "body"] (by simp [Fields.keys]) fun name hname => ?_
  simp only [List.mem_cons, List.not_mem_nil, or_false] at hname
  rcases hname with rfl | rfl
  · exact Or.inr (.some (.refl ..))
  · exact Or.inr (.some (.of_elements h))

/-! ## Fields that are not read -/

/-- **Validation reads only the fields of the grammar.**  A tree whose fields are permuted, and
    in which fields that are not read are added, removed or changed, is valid as before, and
    the same is found in it at the same places, with the same messages and positions. -/
theorem unread_indifferent {t t' : Tree} (h : t.Edited .unread .node t') (strict : Bool) :
    t.FoundSame strict t' :=
  h.foundSame Edits.harmless_unread rfl strict

/-- The program `break; ;`. -/
def Tree.strayBreak : Tree :=
  .program [.node .breakStatement [], .node .emptyStatement [("loc", .null)]]

/-- The same with its fields in another order, a range and comments. -/
def Tree.annotatedBreak : Tree :=
  .object [("range", .array []),
    ("body", .array [.object [("comments", .null), ("type", .string "BreakStatement")],
      .object [("loc", .null), ("type", .string "EmptyStatement")]]),
    ("type", .string "Program")]

/-- The statement leaves no loop, with and without the comments. -/
theorem annotatedBreak_foundSame :
    Tree.strayBreak.FoundSame false Tree.annotatedBreak ∧
    ⟨[.element 0, .field "body"], "BreakStatement", .breakOutside, none⟩ ∈
      (Tree.annotatedBreak.violations false).map Violation.finding := by
  have hbreak : (Tree.node .breakStatement []).Edited .unread .node
      (.object [("comments", .null), ("type", .string "BreakStatement")]) := by
    refine .of_keys ["type", "comments"] (by decide) fun name hname => ?_
    simp only [List.mem_cons, List.not_mem_nil, or_false] at hname
    rcases hname with rfl | rfl
    · exact Or.inr (.some (.refl ..))
    · exact Or.inl rfl
  have hempty : (Tree.node .emptyStatement [("loc", .null)]).Edited .unread .node
      (.object [("loc", .null), ("type", .string "EmptyStatement")]) :=
    .of_perm (.swap ..) (by decide)
  have hedited : Tree.strayBreak.Edited .unread .node Tree.annotatedBreak := by
    refine .of_keys ["type", "body", "range"] (by decide) fun name hname => ?_
    simp only [List.mem_cons, List.not_mem_nil, or_false] at hname
    rcases hname with rfl | rfl | rfl
    · exact Or.inr (.some (.refl ..))
    · exact Or.inr (.some (.of_elements (.cons hbreak (.cons hempty .nil))))
    · exact Or.inl rfl
  have hsame := unread_indifferent hedited false
  have hvisit : Tree.strayBreak.Visits false ⟨.node, .root false,
      ⟨[.element 0, .field "body"], .node .breakStatement []⟩⟩ :=
    Visit.leads_of_follow (show Visit.follow _ [0] = _ from rfl)
  have hfound := Tree.mem_violations_iff.2 ⟨_, hvisit, List.mem_cons_self⟩
  refine ⟨hsame, ?_⟩
  rw [hsame.findings_eq]
  exact List.mem_map_of_mem hfound

/-! ## Fields that hold `null` -/

/-- **A field that holds `null` is as good as none**, but for the value of a literal.  A tree
    without such fields, as many of them as one likes, is valid as before, and the same is
    found in it at the same places. -/
theorem nulls_indifferent {t t' : Tree} (h : t.Edited .nulls .node t') (strict : Bool) :
    t.FoundSame strict t' :=
  h.foundSame Edits.harmless_nulls rfl strict

/-- The program `return null;`, with `null` for all that it does not have. -/
def Tree.strayReturn : Tree :=
  .program [.node .returnStatement
    [("argument", .node .literal [("value", .null), ("loc", .null)]), ("loc", .null)]]

/-- The same without these fields. -/
def Tree.bareReturn : Tree :=
  .program [.node .returnStatement [("argument", .node .literal [("value", .null)])]]

/-- The statement leaves no function, with the fields and without them; the value of the literal
    remains. -/
theorem bareReturn_foundSame :
    Tree.strayReturn.FoundSame false Tree.bareReturn ∧
    ⟨[.element 0, .field "body"], "ReturnStatement", .returnOutside, none⟩ ∈
      (Tree.bareReturn.violations false).map Violation.finding := by
  have hliteral : (Tree.node .literal [("value", .null), ("loc", .null)]).Edited .nulls .node
      (.node .literal [("value", .null)]) := by
    refine .of_keys ["type", "value", "loc"] (by decide) fun name hname => ?_
    simp only [List.mem_cons, List.not_mem_nil, or_false] at hname
    rcases hname with rfl | rfl | rfl
    · exact Or.inr (.some (.refl ..))
    · exact Or.inr (.some (.refl ..))
    · exact Or.inl ⟨rfl, rfl, by decide⟩
  have hedited : Tree.strayReturn.Edited .nulls .node Tree.bareReturn := by
    refine .program (.cons ?_ .nil)
    refine .of_keys ["type", "argument", "loc"] (by decide) fun name hname => ?_
    simp only [List.mem_cons, List.not_mem_nil, or_false] at hname
    rcases hname with rfl | rfl | rfl
    · exact Or.inr (.some (.refl ..))
    · exact Or.inr (.some hliteral)
    · exact Or.inl ⟨rfl, rfl, by decide⟩
  have hsame := nulls_indifferent hedited false
  have hvisit : Tree.strayReturn.Visits false ⟨.node, .root false,
      ⟨[.element 0, .field "body"], .node .returnStatement
        [("argument", .node .literal [("value", .null), ("loc", .null)]), ("loc", .null)]⟩⟩ :=
    Visit.leads_of_follow (show Visit.follow _ [0] = _ from rfl)
  have hfound := Tree.mem_violations_iff.2 ⟨_, hvisit, List.mem_cons_self⟩
  refine ⟨hsame, ?_⟩
  rw [hsame.findings_eq]
  exact List.mem_map_of_mem hfound

/-! ## Catch clauses -/

/-- **A single catch clause is as good as a list of one.**  A tree in which single catch clauses
    are put in lists is valid as before.  The same is found in it in the same order, each
    finding at the place where its owner is then; a catch clause that is none is charged as
    the first one in the list.  And beside a list of catch clauses it does not matter what
    the field of a single one holds. -/
theorem clauses_listed (strict : Bool) :
    (∀ t t' : Tree, t.Edited .listed .node t' →
      t'.isValid strict = t.isValid strict ∧
      t'.isValidExpression strict = t.isValidExpression strict ∧
      (t'.violations strict).map Violation.finding =
        (t.violations strict).map fun w => w.finding.listed t t') ∧
    ∀ t t' : Tree, t.Edited .besideLists .node t' → t.FoundSame strict t' := by
  refine ⟨fun t t' h => ⟨?_, ?_, ?_⟩, fun t t' h => ?_⟩
  · exact h.isValid_eq Edits.harmless_listed strict
  · exact h.isValidExpression_eq Edits.harmless_listed strict
  · exact findings_edited Edits.harmless_listed h strict
  · exact h.foundSame Edits.harmless_besideLists rfl strict

/-- A program with a try statement, the block of which is empty. -/
def Tree.tryProgram (clauses : List (String × Tree)) : Tree :=
  .program [.node .tryStatement (("block", .block []) :: clauses)]

/-- A `break` as the single catch clause of a try statement is charged as that, and by itself;
    in a list it is charged as the first one there.  A second one beside the list is not
    looked at. -/
theorem brokenClause_listed :
    let stray := Tree.node .breakStatement []
    let single := Tree.tryProgram [("handler", stray)]
    let listed := Tree.tryProgram [("handlers", .array [stray])]
    let both := Tree.tryProgram [("handlers", .array [stray]), ("handler", stray)]
    listed.isValid false = single.isValid false ∧
    ⟨[.element 0, .field "body"], "TryStatement",
        .misplaced (.element "handlers" 0) .catchClause .breakStatement, none⟩ ∈
      (listed.violations false).map Violation.finding ∧
    ⟨[.element 0, .field "handlers", .element 0, .field "body"], "BreakStatement",
        .breakOutside, none⟩ ∈ (listed.violations false).map Violation.finding ∧
    listed.FoundSame false both := by
  intro stray single listed both
  have hlisted : single.Edited .listed .node listed := by
    refine .program (.cons ?_ .nil)
    refine .of_listed rfl ⟨rfl, rfl, rfl, rfl, rfl⟩ (.refl _ _ stray) fun name hname hname' => ?_
    have hother : ∀ {field : String} {value : Tree}, name ≠ field →
        (Tree.node .tryStatement [("block", .block []), (field, value)]).get? name =
          (Tree.node .tryStatement [("block", .block [])]).get? name := by
      intro field value hne
      have hfalse : (name == field) = false := beq_eq_false_iff_ne.2 hne
      simp [Tree.get?, Tree.node, List.lookup_cons, hfalse]
    rw [hother hname, hother hname']
    exact Tree.Edited.rel_refl ..
  have hboth : listed.Edited .besideLists .node both := by
    refine .program (.cons ?_ .nil)
    refine .of_keys ["type", "block", "handlers", "handler"] (by decide) fun name hname => ?_
    simp only [List.mem_cons, List.not_mem_nil, or_false] at hname
    rcases hname with rfl | rfl | rfl | rfl
    · exact Or.inr (.some (.refl ..))
    · exact Or.inr (.some (.refl ..))
    · exact Or.inr (.some (.refl ..))
    · exact Or.inl ⟨rfl, rfl, rfl⟩
  have hfindings := ((clauses_listed false).1 _ _ hlisted).2.2
  have htry : single.Visits false ⟨.node, .root false, ⟨[.element 0, .field "body"],
      .node .tryStatement [("block", .block []), ("handler", stray)]⟩⟩ :=
    Visit.leads_of_follow (show Visit.follow _ [0] = _ from rfl)
  have hclause : single.Visits false ⟨.node, .root false,
      ⟨[.field "handler", .element 0, .field "body"], stray⟩⟩ :=
    Visit.leads_of_follow (show Visit.follow _ [0, 1] = _ from rfl)
  have hmisplaced := Tree.mem_violations_iff.2 ⟨_, htry, List.mem_cons_self⟩
  have houtside := Tree.mem_violations_iff.2 ⟨_, hclause, List.mem_cons_self⟩
  refine ⟨((clauses_listed false).1 _ _ hlisted).1, ?_, ?_, (clauses_listed false).2 _ _ hboth⟩
  · rw [hfindings]
    exact List.mem_map.2 ⟨_, hmisplaced, rfl⟩
  · rw [hfindings]
    exact List.mem_map.2 ⟨_, houtside, rfl⟩

end ScriptTree
