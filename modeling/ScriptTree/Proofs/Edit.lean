/-
  Changes of the fields in a tree.

  * `Place`, `Place.reads`: how a value is looked at, and which of its fields are read.
  * `Edits`: the changes that may be made; `Tree.Edited`: a tree after any set of them
    (`Edited.of_perm`: the fields of an object may be permuted).
  * `Edits.Harmless`: the changes are of fields that are not read, or of fields that hold
    nothing but `null`; `Edits.Mild`: but for the properties of object literals.
  * `Edited.child`: what is read of a value corresponds to what is read after mild
    changes (`kind?_eq`, `identifierName?_eq`, `locationFaults_eq` and so on).
-/
import Mathlib.Data.List.Forall2
import ScriptTree.Diagnostic
import ScriptTree.Proofs.Visit

namespace ScriptTree

/-! ## What is read -/

/-- How a value is looked at. -/
inductive Place where
  /-- As a node, or as a name that is checked like one: a key, or what is behind a dot. -/
  | node
  /-- As a property of an object literal. -/
  | property
  /-- As a list of nodes. -/
  | nodes
  /-- As a list of properties. -/
  | properties
  /-- As a source location. -/
  | location
  /-- As one of the two positions of a source location. -/
  | position
  /-- As a text, a number or a flag. -/
  | plain
  deriving DecidableEq, Repr

namespace Grammar

/-- The fields that are read of every value with a rule. -/
def commonFields : List (String × Place) := [("type", .plain), ("loc", .location)]

/-- The fields that the rule of a kind reads.  A single catch clause is not read beside a
    list of them. -/
def fieldsOfKind (t : Tree) : Kind → List (String × Place)
  | .program | .blockStatement => [("body", .nodes)]
  | .arrayExpression => [("elements", .nodes)]
  | .assignmentExpression | .binaryExpression | .logicalExpression =>
    [("operator", .plain), ("left", .node), ("right", .node)]
  | .callExpression | .newExpression => [("callee", .node), ("arguments", .nodes)]
  | .conditionalExpression | .ifStatement =>
    [("test", .node), ("consequent", .node), ("alternate", .node)]
  | .functionExpression | .functionDeclaration =>
    [("id", .node), ("params", .nodes), ("body", .node)]
  | .identifier => [("name", .plain)]
  | .literal => [("value", .plain)]
  | .memberExpression => [("object", .node), ("computed", .plain), ("property", .node)]
  | .objectExpression => [("properties", .properties)]
  | .sequenceExpression => [("expressions", .nodes)]
  | .thisExpression | .debuggerStatement | .emptyStatement => []
  | .unaryExpression => [("operator", .plain), ("argument", .node)]
  | .updateExpression => [("operator", .plain), ("argument", .node), ("prefix", .plain)]
  | .breakStatement | .continueStatement => [("label", .node)]
  | .doWhileStatement | .whileStatement => [("test", .node), ("body", .node)]
  | .expressionStatement => [("expression", .node)]
  | .forInStatement => [("left", .node), ("right", .node), ("body", .node)]
  | .forStatement => [("init", .node), ("test", .node), ("update", .node), ("body", .node)]
  | .labeledStatement => [("label", .node), ("body", .node)]
  | .returnStatement | .throwStatement => [("argument", .node)]
  | .switchStatement => [("discriminant", .node), ("cases", .nodes)]
  | .switchCase => [("test", .node), ("consequent", .nodes)]
  | .tryStatement =>
    ("block", .node) :: ("finalizer", .node) :: ("handlers", .nodes) ::
      if (t.child? "handlers").isSome then [] else [("handler", .node)]
  | .catchClause => [("param", .node), ("body", .node)]
  | .variableDeclaration => [("kind", .plain), ("declarations", .nodes)]
  | .variableDeclarator => [("id", .node), ("init", .node)]
  | .withStatement => [("object", .node), ("body", .node)]

end Grammar

namespace Place

open Grammar

/-- The fields that are read of a value, and how what they hold is looked at. -/
def reads (p : Place) (t : Tree) : List (String × Place) :=
  match p with
  | .node => commonFields ++ (t.kind?.map (fieldsOfKind t)).getD []
  | .property => commonFields ++ [("kind", .plain), ("key", .node), ("value", .node)]
  | .location => [("source", .plain), ("start", .position), ("end", .position)]
  | .position => [("line", .plain), ("column", .plain)]
  | .plain => [("type", .plain)]
  | .nodes | .properties => []

/-- How the value of a field is looked at, as far as it is. -/
def field (p : Place) (t : Tree) (name : String) : Place :=
  ((p.reads t).lookup name).getD .plain

/-- How the elements of a list are looked at, as far as they are. -/
def element : Place → Place
  | .nodes => .node
  | .properties => .property
  | _ => .plain

end Place

/-! ## Changes -/

/-- Which changes may be made in a tree. -/
structure Edits where
  /-- Whether a field of a value may be changed, from what it holds to something else.  A
      field that is missing holds nothing. -/
  field : Place → Tree → String → Option Tree → Option Tree → Prop
  /-- Whether a single catch clause may be put in a list. -/
  listsClauses : Bool

namespace Tree

/-- A try statement with a single catch clause, and one with a list of it. -/
structure ClauseListed (t t' clause clause' : Tree) : Prop where
  kind_eq : t.kind? = some .tryStatement
  no_list : t.child? "handlers" = none
  clause_eq : t.child? "handler" = some clause
  list_eq : t'.get? "handlers" = some (.array [clause'])
  no_clause : t'.get? "handler" = none

/-- A value at a place, before and after any set of changes in it and in what it holds.  The
    order of the fields of an object does not matter. -/
inductive Edited (e : Edits) : Place → Tree → Tree → Prop
  /-- Only objects and arrays hold anything. -/
  | scalar {p t} : t.isObject = false → t.elements? = none → Edited e p t t
  | array {p} {xs ys : List Tree} : xs.length = ys.length →
      (∀ (i : Nat) (x y : Tree), xs[i]? = some x → ys[i]? = some y →
        Edited e p.element x y) →
      Edited e p (.array xs) (.array ys)
  /-- Some of the fields of an object are changed. -/
  | object {p t t'} (changed : String → Prop) : t.isObject = true → t'.isObject = true →
      (∀ name, changed name → e.field p t name (t.get? name) (t'.get? name)) →
      (∀ name, ¬ changed name → ((t.get? name).isSome ↔ (t'.get? name).isSome)) →
      (∀ name c c', ¬ changed name → t.get? name = some c → t'.get? name = some c' →
        Edited e (p.field t name) c c') →
      Edited e p t t'
  /-- The catch clause of a try statement is put in a list. -/
  | clause {p t t' c c'} : e.listsClauses = true → t.ClauseListed t' c c' →
      Edited e .node c c' →
      (∀ name, name ≠ "handler" → name ≠ "handlers" →
        ((t.get? name).isSome ↔ (t'.get? name).isSome)) →
      (∀ name c c', name ≠ "handler" → name ≠ "handlers" →
        t.get? name = some c → t'.get? name = some c' → Edited e (p.field t name) c c') →
      Edited e p t t'

/-- A field that is missing, or that holds `null`. -/
def Blank (field : Option Tree) : Prop := field = none ∨ field = some .null

end Tree

namespace Edits

/-- A change that makes no difference: the field is not read, or it holds nothing but `null`
    before and after and is not the value of a literal, where `null` counts. -/
def Idle (p : Place) (t : Tree) (name : String) (old new : Option Tree) : Prop :=
  (p.reads t).lookup name = none ∨
    Tree.Blank old ∧ Tree.Blank new ∧ ¬ (name = "value" ∧ t.kind? = some .literal)

/-- The changes make no difference. -/
def Harmless (e : Edits) : Prop :=
  ∀ p t name old new, e.field p t name old new → Idle p t name old new

/-- The changes make no difference, but for those of the properties of object literals. -/
def Mild (e : Edits) : Prop :=
  ∀ p t name old new, name ≠ "properties" → e.field p t name old new → Idle p t name old new

theorem Harmless.mild {e : Edits} (h : e.Harmless) : e.Mild :=
  fun p t name old new _ => h p t name old new

end Edits

/-! ## Values before and after -/

section
variable {α β γ δ : Type} {R : α → β → Prop} {a : Option α} {b : Option β}

theorem eq_none_or_of_rel (h : Option.Rel R a b) :
    (a = none ∧ b = none) ∨ ∃ x y, a = some x ∧ b = some y ∧ R x y := by
  cases h with
  | none => exact Or.inl ⟨rfl, rfl⟩
  | some hxy => exact Or.inr ⟨_, _, rfl, rfl, hxy⟩

theorem of_rel_some {x : α} {y : β} (h : Option.Rel R a b) (ha : a = some x) (hb : b = some y) :
    R x y := by
  subst ha hb
  cases h with
  | some hxy => exact hxy

theorem isSome_eq_of_rel (h : Option.Rel R a b) : a.isSome = b.isSome := by
  cases h <;> rfl

/-- Functions that agree on what corresponds agree on options that correspond. -/
theorem bind_eq_of_rel {f : α → Option γ} {g : β → Option γ} (h : Option.Rel R a b)
    (hfg : ∀ x y, R x y → f x = g y) : a >>= f = b >>= g := by
  cases h with
  | none => rfl
  | some hxy => exact hfg _ _ hxy

theorem rel_bind {S : γ → δ → Prop} {f : α → Option γ} {g : β → Option δ}
    (h : Option.Rel R a b) (hfg : ∀ x y, R x y → Option.Rel S (f x) (g y)) :
    Option.Rel S (a >>= f) (b >>= g) := by
  cases h with
  | none => exact .none
  | some hxy => exact hfg _ _ hxy

end

namespace Fields

variable {V : Type}

theorem lookup_eq_none {fields : List (String × V)} {name : String} (h : name ∉ keys fields) :
    fields.lookup name = none := by
  refine List.lookup_eq_none_iff.2 fun field hfield => ?_
  have hne : name ≠ field.1 := by
    rintro rfl
    exact h (List.mem_map_of_mem hfield)
  simpa using hne

/-- The order of fields does not matter, if no name is repeated. -/
theorem lookup_of_perm {fields fields' : List (String × V)} (h : fields.Perm fields')
    (hnodup : (keys fields).Nodup) (name : String) :
    fields.lookup name = fields'.lookup name := by
  induction h with
  | nil => rfl
  | cons _ _ ih => rw [List.lookup_cons, List.lookup_cons, ih (List.nodup_cons.1 hnodup).2]
  | swap a b rest =>
    obtain ⟨key, value⟩ := a
    obtain ⟨key', value'⟩ := b
    have hne : key' ≠ key := by
      rintro rfl
      exact (List.nodup_cons.1 hnodup).1 List.mem_cons_self
    rw [List.lookup_cons, List.lookup_cons, List.lookup_cons, List.lookup_cons]
    by_cases hkey : name = key
    · have : (key == key') = false := beq_eq_false_iff_ne.2 hne.symm
      simp [hkey, this]
    · have : (name == key) = false := beq_eq_false_iff_ne.2 hkey
      simp [this]
  | trans hfirst _ ih ih' => exact (ih hnodup).trans (ih' ((hfirst.map _).nodup_iff.1 hnodup))

end Fields

namespace Tree

variable {t t' : Tree} {name : String}

theorem child?_eq_none_of_blank (h : Blank (t.get? name)) : t.child? name = none := by
  rcases h with h | h <;> rw [child?, h]

theorem child?_of_get?_none (h : t.get? name = none) : t.child? name = none :=
  child?_eq_none_of_blank (Or.inl h)

theorem get?_of_not_isObject (h : t.isObject = false) (name : String) : t.get? name = none := by
  cases t with
  | object => cases h
  | _ => rfl

/-- What `null` holds nothing of can be read of a field as of a child. -/
theorem get?_bind {α : Type} {f : Tree → Option α} (hnull : f .null = none) :
    t.get? name >>= f = t.child? name >>= f := by
  unfold child?
  cases t.get? name with
  | none => rfl
  | some c => cases c <;> first | rfl | exact hnull

/-- A reading of values that are neither `null` nor hold anything. -/
structure ReadsScalar {α : Type} (f : Tree → Option α) : Prop where
  null : f .null = none
  array : ∀ elements, f (.array elements) = none
  object : ∀ fields, f (.object fields) = none

theorem readsScalar_string? : ReadsScalar string? := ⟨rfl, fun _ => rfl, fun _ => rfl⟩

theorem readsScalar_number? : ReadsScalar number? := ⟨rfl, fun _ => rfl, fun _ => rfl⟩

theorem readsScalar_bool? : ReadsScalar bool? := ⟨rfl, fun _ => rfl, fun _ => rfl⟩

end Tree

/-- A field that is read and holds neither catch clauses nor properties. -/
def Grammar.steady? (fields : List (String × Place)) (name : String) : Option Place :=
  if name = "handler" ∨ name = "handlers" ∨ name = "properties" then none else fields.lookup name

open Grammar

/-- Of a node of a kind, what the rule of the kind reads is read. -/
theorem Tree.steady_of_kind {t : Tree} {kind : Kind} {name : String} {q : Place}
    (hkind : t.kind? = some kind)
    (hread : steady? (commonFields ++ fieldsOfKind t kind) name = some q) :
    steady? (Place.node.reads t) name = some q := by
  rw [Place.reads, hkind]
  exact hread

namespace Tree.Edited

variable {e : Edits} {p q : Place} {t t' : Tree} {name : String}

/-- Only arrays and objects are changed, and they remain what they are. -/
theorem eq_or_holds (h : t.Edited e p t') :
    t = t' ∨ (∃ xs ys, t = .array xs ∧ t' = .array ys) ∨
      ∃ fields fields', t = .object fields ∧ t' = .object fields' := by
  have hobjects : t.isObject = true → t'.isObject = true →
      ∃ fields fields', t = .object fields ∧ t' = .object fields' := by
    intro ht ht'
    cases t <;> cases ht
    cases t' <;> cases ht'
    exact ⟨_, _, rfl, rfl⟩
  cases h with
  | scalar => exact Or.inl rfl
  | array => exact Or.inr (Or.inl ⟨_, _, rfl, rfl⟩)
  | object _ ht ht' => exact Or.inr (Or.inr (hobjects ht ht'))
  | clause _ hlisted =>
    exact Or.inr (Or.inr (hobjects (isObject_of_kind? hlisted.kind_eq)
      (isObject_of_get? hlisted.list_eq)))

theorem isObject_eq (h : t.Edited e p t') : t.isObject = t'.isObject := by
  rcases h.eq_or_holds with rfl | ⟨_, _, rfl, rfl⟩ | ⟨_, _, rfl, rfl⟩ <;> rfl

theorem eq_null_iff (h : t.Edited e p t') : t = .null ↔ t' = .null := by
  rcases h.eq_or_holds with rfl | ⟨_, _, rfl, rfl⟩ | ⟨_, _, rfl, rfl⟩ <;> simp

theorem scalar_eq {α : Type} {f : Tree → Option α} (hf : ReadsScalar f)
    (h : t.Edited e p t') : f t = f t' := by
  rcases h.eq_or_holds with rfl | ⟨_, _, rfl, rfl⟩ | ⟨_, _, rfl, rfl⟩
  · rfl
  · rw [hf.array, hf.array]
  · rw [hf.object, hf.object]

theorem elements?_rel (h : t.Edited e p t') :
    Option.Rel (List.Forall₂ (Edited e p.element)) t.elements? t'.elements? := by
  have hobject : ∀ {u : Tree}, u.isObject = true → u.elements? = none := by
    intro u hu
    cases u <;> first | rfl | cases hu
  have heq := h.isObject_eq
  cases h with
  | scalar _ hnone =>
    rw [hnone]
    exact .none
  | array hlength helements =>
    refine .some (List.forall₂_iff_get.2 ⟨hlength, fun i hi hi' => ?_⟩)
    exact helements i _ _ (List.getElem?_eq_getElem hi) (List.getElem?_eq_getElem hi')
  | object _ ht ht' =>
    rw [hobject ht, hobject ht']
    exact .none
  | clause _ hlisted =>
    have ht := isObject_of_kind? hlisted.kind_eq
    rw [hobject ht, hobject (heq ▸ ht)]
    exact .none

/-! ### Making changes -/

/-- Every field is changed as it may be, or corresponds. -/
theorem of_fields (ht : t.isObject = true) (ht' : t'.isObject = true)
    (h : ∀ name, e.field p t name (t.get? name) (t'.get? name) ∨
      Option.Rel (Edited e (p.field t name)) (t.get? name) (t'.get? name)) :
    t.Edited e p t' := by
  refine .object (fun name => e.field p t name (t.get? name) (t'.get? name)) ht ht'
    (fun _ => id) (fun name hname => ?_) ?_
  · rw [isSome_eq_of_rel ((h name).resolve_left hname)]
  · exact fun name _ _ hname => of_rel_some ((h name).resolve_left hname)

/-- Nothing need be changed. -/
theorem refl (e : Edits) (p : Place) (t : Tree) : t.Edited e p t := by
  induction hn : sizeOf t using Nat.strongRecOn generalizing p t with
  | ind n ih =>
    subst hn
    cases t with
    | object fields =>
      refine of_fields rfl rfl fun name => Or.inr ?_
      cases hget : (Tree.object fields).get? name with
      | none => exact .none
      | some c => exact .some (ih _ (sizeOf_lt_of_get? hget) _ c rfl)
    | array elements =>
      refine .array rfl fun i x y hx hy => ?_
      obtain rfl := Option.some.inj (hx.symm.trans hy)
      exact ih _ (sizeOf_lt_of_elements? rfl (List.mem_of_getElem? hx)) _ x rfl
    | _ => exact .scalar rfl rfl

theorem rel_refl (e : Edits) (p : Place) (field : Option Tree) :
    Option.Rel (Edited e p) field field := by
  cases field with
  | none => exact .none
  | some c => exact .some (refl e p c)

/-- The elements of two arrays correspond. -/
theorem of_elements {xs ys : List Tree} (h : List.Forall₂ (Edited e p.element) xs ys) :
    (Tree.array xs).Edited e p (.array ys) := by
  obtain ⟨hlength, hget⟩ := List.forall₂_iff_get.1 h
  refine .array hlength fun i x y hx hy => ?_
  obtain ⟨hi, rfl⟩ := List.getElem?_eq_some_iff.1 hx
  obtain ⟨hi', rfl⟩ := List.getElem?_eq_some_iff.1 hy
  exact hget i hi hi'

/-- The catch clause of a try statement is put in a list, and its other fields correspond. -/
theorem of_listed {c c' : Tree} (hlists : e.listsClauses = true) (hlisted : t.ClauseListed t' c c')
    (hclause : c.Edited e .node c') (h : ∀ name, name ≠ "handler" → name ≠ "handlers" →
      Option.Rel (Edited e (p.field t name)) (t.get? name) (t'.get? name)) : t.Edited e p t' := by
  refine .clause hlists hlisted hclause (fun name hname hname' => ?_) ?_
  · rw [isSome_eq_of_rel (h name hname hname')]
  · exact fun name _ _ hname hname' => of_rel_some (h name hname hname')

/-- The fields of two objects are changed as they may be, or correspond. -/
theorem of_keys {fields fields' : List (String × Tree)} (names : List String)
    (hnames : ∀ name ∈ Fields.keys fields ++ Fields.keys fields', name ∈ names)
    (h : ∀ name ∈ names,
      e.field p (.object fields) name (fields.lookup name) (fields'.lookup name) ∨
        Option.Rel (Edited e (p.field (.object fields) name)) (fields.lookup name)
          (fields'.lookup name)) :
    (Tree.object fields).Edited e p (.object fields') := by
  refine of_fields rfl rfl fun name => ?_
  by_cases hname : name ∈ names
  · exact h name hname
  · obtain ⟨hfields, hfields'⟩ := not_or.1 fun hmem =>
      hname (hnames name (List.mem_append.2 hmem))
    refine Or.inr ?_
    rw [get?, get?, Fields.lookup_eq_none hfields, Fields.lookup_eq_none hfields']
    exact .none

/-- The fields of an object may be permuted, if no name is repeated. -/
theorem of_perm {fields fields' : List (String × Tree)} (h : fields.Perm fields')
    (hnodup : (Fields.keys fields).Nodup) :
    (Tree.object fields).Edited e p (.object fields') := by
  refine of_fields rfl rfl fun name => Or.inr ?_
  rw [get?, get?, Fields.lookup_of_perm h hnodup]
  exact rel_refl ..

/-! ### Fields -/

/-- A field that is there before and after, or neither, corresponds. -/
theorem rel_get? (hsome : (t.get? name).isSome ↔ (t'.get? name).isSome)
    (hedited : ∀ c c', t.get? name = some c → t'.get? name = some c' → c.Edited e q c') :
    Option.Rel (Edited e q) (t.get? name) (t'.get? name) := by
  cases hget : t.get? name with
  | none =>
    have hget' : t'.get? name = none := by simpa [hget] using hsome
    rw [hget']
    exact .none
  | some c =>
    obtain ⟨c', hget'⟩ := Option.isSome_iff_exists.1 (hsome.1 (by rw [hget]; rfl))
    rw [hget']
    exact .some (hedited c c' hget hget')

/-- A field that corresponds does so as a child. -/
theorem rel_child? (h : Option.Rel (Edited e q) (t.get? name) (t'.get? name)) :
    Option.Rel (Edited e q) (t.child? name) (t'.child? name) := by
  rcases eq_none_or_of_rel h with ⟨hget, hget'⟩ | ⟨c, c', hget, hget', hc⟩
  · rw [child?_of_get?_none hget, child?_of_get?_none hget']
    exact .none
  · by_cases hnull : c = .null
    · rw [child?_eq_none_of_blank (Or.inr (hnull ▸ hget)),
        child?_eq_none_of_blank (Or.inr (hc.eq_null_iff.1 hnull ▸ hget'))]
      exact .none
    · rw [child?_eq_some_iff.2 ⟨hget, hnull⟩,
        child?_eq_some_iff.2 ⟨hget', fun h => hnull (hc.eq_null_iff.2 h)⟩]
      exact .some hc

/-- Of an object whose fields are changed mildly, a field that is read corresponds. -/
theorem rel_of_changed (he : e.Mild) (hname : name ≠ "properties") {changed : String → Prop}
    (hchanged : ∀ name, changed name → e.field p t name (t.get? name) (t'.get? name))
    (hsome : ∀ name, ¬ changed name → ((t.get? name).isSome ↔ (t'.get? name).isSome))
    (hedited : ∀ name c c', ¬ changed name → t.get? name = some c → t'.get? name = some c' →
      c.Edited e (p.field t name) c')
    (hread : (p.reads t).lookup name = some q) :
    Option.Rel (Edited e q) (t.child? name) (t'.child? name) := by
  have hfield : p.field t name = q := by rw [Place.field, hread]; rfl
  by_cases h : changed name
  · rcases he _ _ _ _ _ hname (hchanged name h) with hunread | ⟨hold, hnew, -⟩
    · cases hunread.symm.trans hread
    · rw [child?_eq_none_of_blank hold, child?_eq_none_of_blank hnew]
      exact .none
  · exact rel_child? (rel_get? (hsome name h) (hfield ▸ hedited name · · h))

section
variable (he : e.Mild) (h : t.Edited e p t')
include he h

/-- **What is read of a value corresponds to what is read of it after mild changes.** -/
theorem child (name : String) (hread : steady? (p.reads t) name = some q) :
    Option.Rel (Edited e q) (t.child? name) (t'.child? name) := by
  obtain ⟨hname, hread⟩ := (Option.ite_none_left_eq_some ..).1 hread
  obtain ⟨hhandler, hhandlers, hproperties⟩ := by simpa only [not_or] using hname
  cases h with
  | scalar hobject =>
    rw [child?_of_get?_none (get?_of_not_isObject hobject name)]
    exact .none
  | array => exact .none
  | object changed _ _ hchanged hsome hedited =>
    exact rel_of_changed he hproperties hchanged hsome hedited hread
  | clause _ _ _ hsome hedited =>
    have hfield : p.field t name = q := by rw [Place.field, hread]; rfl
    exact rel_child? (rel_get? (hsome name hhandler hhandlers)
      (hfield ▸ hedited name · · hhandler hhandlers))

theorem read_eq {α : Type} {f : Tree → Option α} (hf : ReadsScalar f) (name : String)
    (hread : steady? (p.reads t) name = some q) :
    t.get? name >>= f = t'.get? name >>= f := by
  rw [get?_bind hf.null, get?_bind hf.null]
  exact bind_eq_of_rel (h.child he name hread) fun _ _ hc => hc.scalar_eq hf

/-! ### Types -/

theorem typeName?_eq (hread : steady? (p.reads t) "type" = some q) :
    t.typeName? = t'.typeName? := h.read_eq he readsScalar_string? "type" hread

theorem kind?_eq (hread : steady? (p.reads t) "type" = some q) : t.kind? = t'.kind? := by
  rw [kind?, kind?, h.typeName?_eq he hread]

theorem describe_eq (hread : steady? (p.reads t) "type" = some q) :
    t.describe = t'.describe := by
  have hname := h.typeName?_eq he hread
  rcases h.eq_or_holds with rfl | ⟨_, _, rfl, rfl⟩ | ⟨_, _, rfl, rfl⟩
  · rfl
  · rfl
  · rw [describe, describe, hname]

end

/-! ### Locations -/

section
variable (he : e.Mild)
include he

theorem endpointFaults_eq (h : t.Edited e .location t') (endpoint : Endpoint) :
    Steps.endpointFaults t endpoint = Steps.endpointFaults t' endpoint := by
  have hread : steady? (Place.location.reads t) endpoint.name = some .position := by
    cases endpoint <;> rfl
  unfold Steps.endpointFaults
  rcases eq_none_or_of_rel (h.child he _ hread) with ⟨hnone, hnone'⟩ | ⟨c, c', hc, hc', hedited⟩
  · rw [hnone, hnone']
  · have hline := hedited.read_eq he readsScalar_number? "line" rfl
    have hcolumn := hedited.read_eq he readsScalar_number? "column" rfl
    simp only [hc, hc', hline, hcolumn]

theorem locationFaults_eq (h : t.Edited e p t')
    (hread : steady? (p.reads t) "loc" = some .location) :
    Steps.locationFaults t = Steps.locationFaults t' := by
  unfold Steps.locationFaults
  rcases eq_none_or_of_rel (h.child he _ hread) with ⟨hnone, hnone'⟩ | ⟨c, c', hc, hc', hedited⟩
  · rw [hnone, hnone']
  · simp only [hc, hc', hedited.endpointFaults_eq he]
    have hsource := hedited.child he "source" rfl
    rcases eq_none_or_of_rel hsource with ⟨hnone, hnone'⟩ | ⟨text, text', ht, ht', hedited⟩
    · simp only [hnone, hnone']
    · simp only [ht, ht']
      rcases hedited.eq_or_holds with rfl | ⟨_, _, rfl, rfl⟩ | ⟨_, _, rfl, rfl⟩ <;> rfl

theorem position?_eq (h : t.Edited e p t')
    (hread : steady? (p.reads t) "loc" = some .location) : t.position? = t'.position? := by
  refine bind_eq_of_rel (h.child he _ hread) fun location location' hlocation => ?_
  refine bind_eq_of_rel (hlocation.child he "start" rfl) fun start start' hstart => ?_
  rw [hstart.read_eq he readsScalar_number? "line" rfl,
    hstart.read_eq he readsScalar_number? "column" rfl]

/-! ### Nodes -/

theorem nodeKind_eq (h : t.Edited e .node t') : t.nodeKind = t'.nodeKind := by
  rw [nodeKind, nodeKind, h.isObject_eq, h.typeName?_eq he rfl,
    h.describe_eq he rfl]

/-- What the rule of a kind reads corresponds. -/
theorem child_of_kind (h : t.Edited e .node t') {kind : Kind} (hkind : t.kind? = some kind)
    (name : String) (hread : steady? (commonFields ++ fieldsOfKind t kind) name = some q) :
    Option.Rel (Edited e q) (t.child? name) (t'.child? name) :=
  h.child he name (steady_of_kind hkind hread)

theorem identifierName?_eq (h : t.Edited e .node t') :
    t.identifierName? = t'.identifierName? := by
  have hkind := h.kind?_eq he rfl
  unfold identifierName?
  rw [← hkind]
  split
  · next hidentifier =>
    exact h.read_eq he readsScalar_string? "name" (steady_of_kind hidentifier rfl)
  · rfl

/-- The value of a literal corresponds, `null` or not. -/
theorem literalValue_rel (h : t.Edited e .node t') (hkind : t.kind? = some .literal) :
    Option.Rel (Edited e .plain) (t.get? "value") (t'.get? "value") := by
  -- as a child, a value that is `null` could not be told from one that is missing
  have hobject := isObject_of_kind? hkind
  have hread : (Place.node.reads t).lookup "value" = some .plain := by
    rw [Place.reads, hkind]
    rfl
  cases h with
  | scalar hscalar => cases hobject.symm.trans hscalar
  | array => cases hobject
  | object changed _ _ hchanged hsome hedited =>
    have hsteady : ¬ changed "value" := by
      intro h
      rcases he _ _ _ _ _ (by decide) (hchanged _ h) with hunread | ⟨-, -, hnot⟩
      · cases hunread.symm.trans hread
      · exact hnot ⟨rfl, hkind⟩
    have hfield : Place.node.field t "value" = .plain := by rw [Place.field, hread]; rfl
    exact rel_get? (hsome _ hsteady) (hfield ▸ hedited _ · · hsteady)
  | clause _ hlisted => cases hkind.symm.trans hlisted.kind_eq

/-- The catch clauses of a try statement correspond, or a single one is put in a list. -/
theorem catchClauses_rel (h : t.Edited e .node t') (hkind : t.kind? = some .tryStatement) :
    (Option.Rel (Edited e .nodes) (t.child? "handlers") (t'.child? "handlers") ∧
      (t.child? "handlers" = none →
        Option.Rel (Edited e .node) (t.child? "handler") (t'.child? "handler"))) ∨
    (e.listsClauses = true ∧ ∃ c c', t.ClauseListed t' c c' ∧ c.Edited e .node c') := by
  have hobject := isObject_of_kind? hkind
  cases h with
  | scalar hscalar => cases hobject.symm.trans hscalar
  | array => cases hobject
  | object changed _ _ hchanged hsome hedited =>
    refine Or.inl ⟨rel_of_changed he (by decide) hchanged hsome hedited ?_, fun hnone =>
      rel_of_changed he (by decide) hchanged hsome hedited ?_⟩
    · rw [Place.reads, hkind]
      rfl
    · -- the single catch clause is read only because there is no list
      show (commonFields ++ (t.kind?.map (fieldsOfKind t)).getD []).lookup "handler" = some .node
      rw [hkind, Option.map_some, fieldsOfKind, hnone]
      rfl
  | clause hlists hlisted hclause => exact Or.inr ⟨hlists, _, _, hlisted, hclause⟩

end

/-- The properties of an object literal are changed as they may be, or correspond. -/
theorem properties_rel (h : t.Edited e .node t') (hkind : t.kind? = some .objectExpression) :
    e.field .node t "properties" (t.get? "properties") (t'.get? "properties") ∨
      Option.Rel (Edited e .properties) (t.child? "properties") (t'.child? "properties") := by
  have hobject := isObject_of_kind? hkind
  cases h with
  | scalar hscalar => cases hobject.symm.trans hscalar
  | array => cases hobject
  | object changed _ _ hchanged hsome hedited =>
    by_cases h : changed "properties"
    · exact Or.inl (hchanged _ h)
    · have hfield : Place.node.field t "properties" = .properties := by
        rw [Place.field, Place.reads, hkind]
        rfl
      exact Or.inr (rel_child? (rel_get? (hsome _ h) (hfield ▸ hedited _ · · h)))
  | clause _ hlisted => cases hkind.symm.trans hlisted.kind_eq

end Tree.Edited

end ScriptTree
