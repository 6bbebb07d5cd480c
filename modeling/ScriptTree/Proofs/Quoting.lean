/-
  What a message takes over from the tree.

  The wordings are fixed, and none has a line break.  What they take over stands in them as it
  is: a type, a name, an operator, the key of a property, or the name of a field.

  * `Fault.quote?`, `Violation.quotes`: the texts that a message takes over; all its line
    breaks are theirs (`lineBreaks_message`).
  * `Tree.Quotes`: the strings of a tree that a message may take over.
  * `Steps.Traced`: steps that report no line breaks but those of such strings;
    `Tree.traces_of_mem_violations`: nor does any violation of the tree.
-/
import ScriptTree.Proofs.Conflicts
import ScriptTree.Proofs.Malformed
import ScriptTree.Proofs.Parameters
import ScriptTree.Proofs.Snippet

namespace ScriptTree

/-! ## Line breaks -/

/-- The number of line breaks in a text. -/
def lineBreaks (s : String) : Nat := s.toList.count '\n'

section
variable {s : String}

@[simp] theorem lineBreaks_append (a b : String) :
    lineBreaks (a ++ b) = lineBreaks a + lineBreaks b := by
  rw [lineBreaks, String.toList_append, List.count_append]
  rfl

theorem lineBreaks_eq_zero (h : '\n' ∉ s.toList) : lineBreaks s = 0 := List.count_eq_zero.2 h

theorem lineBreaks_join_cons (s : String) (texts : List String) :
    lineBreaks (String.join (s :: texts)) = lineBreaks s + lineBreaks (String.join texts) := by
  simp only [lineBreaks, String.toList_join, List.flatMap_cons, List.count_append]

theorem lineBreaks_join_append (texts others : List String) :
    lineBreaks (String.join (texts ++ others)) =
      lineBreaks (String.join texts) + lineBreaks (String.join others) := by
  simp only [lineBreaks, String.toList_join, List.flatMap_append, List.count_append]

/-- A text that is written out has no line break if none of its characters is one. -/
theorem newline_not_mem {text : List Char} (h : text.contains '\n' = false) :
    '\n' ∉ (String.ofList text).toList := by
  rw [String.toList_ofList]
  simpa using h

theorem lineBreaks_repr (n : Nat) : lineBreaks n.repr = 0 := by
  have hdigits : n.repr.toList = Nat.toDigits 10 n := String.toList_ofList
  exact lineBreaks_eq_zero (hdigits ▸ (oneLine_toDigits n).not_mem_newline)

end

/-! ## Wordings -/

theorem Endpoint.lineBreaks_name (e : Endpoint) : lineBreaks e.name = 0 := by
  cases e <;> exact lineBreaks_eq_zero (newline_not_mem rfl)

theorem Category.lineBreaks_phrase (c : Category) : lineBreaks c.phrase = 0 := by
  cases c <;> exact lineBreaks_eq_zero (newline_not_mem rfl)

theorem Kind.lineBreaks_name (k : Kind) : lineBreaks k.name = 0 := by
  cases k <;> exact lineBreaks_eq_zero (newline_not_mem rfl)

theorem OperatorFamily.lineBreaks_name (f : OperatorFamily) : lineBreaks f.name = 0 := by
  cases f <;> exact lineBreaks_eq_zero (newline_not_mem rfl)

theorem Field.lineBreaks_display (f : Field) : lineBreaks f.display = lineBreaks f.name := by
  unfold Field.display
  split
  all_goals
    simp (disch := exact newline_not_mem rfl) only [lineBreaks_append, lineBreaks_eq_zero,
      lineBreaks_repr, Nat.zero_add, Nat.add_zero]

namespace Fault

/-- The text that a wording takes over, if it takes one over. -/
def quote? : Fault → Option String
  | notNode found | invalidLiteralValue found | invalidOperator _ (some found) => some found
  | missing field | notArray field | notString field | misplaced field _ _
  | notProperty field => some field.name
  | unknownType name | invalidName name | reservedWord name | conflictingProperty name
  | unknownLabel name | duplicateLabel name | duplicateParameter name | restrictedName name
  | duplicateProperty name => some name
  | _ => none

theorem lineBreaks_quoted (s : String) : lineBreaks (quoted s) = lineBreaks s := by
  simp (disch := exact newline_not_mem rfl) only [quoted, lineBreaks_append, lineBreaks_eq_zero,
    Nat.zero_add, Nat.add_zero]

/-- The line breaks of a wording are those of the text that it takes over. -/
theorem lineBreaks_message (f : Fault) :
    lineBreaks f.message = f.quote?.elim 0 lineBreaks := by
  have hrequired : ∀ b : Bool,
      lineBreaks (if b then " is required" else " must not be null") = 0 := by
    intro b
    cases b <;> exact lineBreaks_eq_zero (newline_not_mem rfl)
  -- of the parts that a wording is put together from, those that are written out have none
  cases f
  case invalidOperator family found =>
    cases found
    all_goals
      delta message quote?
      simp (disch := exact newline_not_mem rfl) only [lineBreaks_append, lineBreaks_eq_zero,
        OperatorFamily.lineBreaks_name, Nat.zero_add, Nat.add_zero, Option.elim]
  all_goals
    delta message quote?
    simp (disch := exact newline_not_mem rfl) only [lineBreaks_append, lineBreaks_eq_zero,
      lineBreaks_quoted, Field.lineBreaks_display, hrequired, Endpoint.lineBreaks_name,
      Category.lineBreaks_phrase, Kind.lineBreaks_name, Nat.zero_add, Nat.add_zero, Option.elim]

end Fault

/-- The texts that a message takes over: the word for the value that is charged, and what the
    wording takes over. -/
def Violation.quotes (w : Violation) : List String :=
  w.owner.value.describe :: w.fault.quote?.toList

theorem Violation.lineBreaks_message (w : Violation) :
    lineBreaks w.message = lineBreaks (String.join w.quotes) := by
  have hcolon : lineBreaks ": " = 0 := lineBreaks_eq_zero (newline_not_mem rfl)
  rw [message, lineBreaks_append, lineBreaks_append, hcolon, Fault.lineBreaks_message, quotes,
    lineBreaks_join_cons]
  cases w.fault.quote? with
  | none => rfl
  | some s =>
    rw [Option.toList_some, lineBreaks_join_cons]
    rfl

/-! ## Strings of a tree -/

theorem newline_not_mem_numberName (x : Double) : '\n' ∉ (numberName x).toList := by
  unfold numberName
  split
  · exact newline_not_mem rfl
  · split
    · rw [String.toList_ofList]
      split
      · decide
      · exact (x.oneLine_text keyStyle).not_mem_newline
    · split
      · exact newline_not_mem rfl
      · exact newline_not_mem rfl

namespace Tree

/-- A string of a tree that a message may take over: a type, a name, the value of a key, or an
    operator in quotation marks. -/
inductive Quotes (t : Tree) : String → Prop
  | type {trail s} : t.at? (.field "type" :: trail) = some (.string s) → Quotes t s
  | name {trail s} : t.at? (.field "name" :: trail) = some (.string s) → Quotes t s
  | key {trail s} : t.at? (.field "value" :: .field "key" :: trail) = some (.string s) →
      Quotes t s
  | operator {trail s} : t.at? (.field "operator" :: trail) = some (.string s) →
      Quotes t (Fault.quoted s)

/-- The line breaks of a text are those of a string of the tree. -/
def Traces (t : Tree) (s : String) : Prop := '\n' ∈ s.toList → t.Quotes s

variable {t value key : Tree} {trail : List Selector} {name s : String}

theorem traces_of_not_mem (h : '\n' ∉ s.toList) : t.Traces s := fun hmem => absurd hmem h

theorem Quotes.traces (h : t.Quotes s) : t.Traces s := fun _ => h

theorem at?_field {c : Tree} (ho : t.at? trail = some value) (h : value.get? name = some c) :
    t.at? (.field name :: trail) = some c := by
  rw [at?, ho]
  exact h

/-- Only the word for an object is one of its own strings. -/
theorem traces_describe (ho : t.at? trail = some value) : t.Traces value.describe := by
  cases value with
  | object fields =>
    cases htype : (Tree.object fields).typeName? with
    | none =>
      rw [describe, htype]
      exact traces_of_not_mem (newline_not_mem rfl)
    | some name =>
      rw [describe, htype]
      exact (Quotes.type (at?_field ho (typeName?_eq_some_iff.1 htype))).traces
  | _ => exact traces_of_not_mem (newline_not_mem rfl)

theorem traces_identifierName (ho : t.at? trail = some value)
    (h : value.identifierName? = some name) : t.Traces name :=
  (Quotes.name (at?_field ho (identifierName?_eq_some_iff.1 h).2)).traces

theorem traces_keyName (ho : t.at? (.field "key" :: trail) = some key) (h : key.KeyName name) :
    t.Traces name := by
  cases h with
  | identifier _ hname _ => exact (Quotes.name (at?_field ho hname)).traces
  | string _ hvalue => exact (Quotes.key (at?_field ho hvalue)).traces
  | number => exact traces_of_not_mem (newline_not_mem_numberName _)

end Tree

/-! ## What steps report -/

namespace Fault

variable {t : Tree} {f : Fault} {s : String}

/-- What the wording of a fault takes over is traced. -/
def Traced (t : Tree) (f : Fault) : Prop := ∀ s ∈ f.quote?, t.Traces s

theorem traced_of_none (h : f.quote? = none) : f.Traced t := by
  intro s hs
  rw [h] at hs
  cases hs

theorem traced_of_some (h : f.quote? = some s) (hs : t.Traces s) : f.Traced t := by
  intro s' hs'
  rw [h] at hs'
  exact Option.some.inj hs' ▸ hs

theorem traced_of_plain (h : f.quote? = some s) (hs : '\n' ∉ s.toList) : f.Traced t :=
  traced_of_some h (Tree.traces_of_not_mem hs)

theorem traced_of_isLocation (h : f.isLocation = true) : f.Traced t := by
  cases f with
  | missingEndpoint | invalidLine | invalidColumn => exact traced_of_none rfl
  | notString field =>
    obtain rfl : field = .named "loc.source" := of_decide_eq_true h
    exact traced_of_plain rfl (newline_not_mem rfl)
  | _ => cases h

end Fault

namespace Steps

variable {t : Tree} {o : Occurrence} {scope : Scope} {name : String} {category : Category}
  {f : Fault}

/-- Steps that report only what can be traced to a tree. -/
def Traced (t : Tree) (steps : List Step) : Prop := ∀ w ∈ reports steps, w.fault.Traced t

@[simp] theorem traced_nil : Traced t [] := List.forall_mem_nil _

@[simp] theorem traced_append {a b : List Step} :
    Traced t (a ++ b) ↔ Traced t a ∧ Traced t b := by
  simp only [Traced, reports_append, List.forall_mem_append]

theorem traced_flatMap {α : Type} {l : List α} {g : α → List Step}
    (h : ∀ a ∈ l, Traced t (g a)) : Traced t (l.flatMap g) := by
  intro w hw
  rw [reports_flatMap, List.mem_flatMap] at hw
  obtain ⟨a, ha, hw⟩ := hw
  exact h a ha w hw

@[simp] theorem traced_visit {role : Role} {c : Occurrence} :
    Traced t [.visit role scope c] := List.forall_mem_nil _

theorem traced_fault (h : f.Traced t) : Traced t (fault o f) := by
  intro w hw
  rw [reports_fault, List.mem_singleton] at hw
  exact hw ▸ h

theorem traced_faultIf {test : Bool} (h : f.Traced t) : Traced t (faultIf test o f) := by
  cases test with
  | false => exact traced_nil
  | true => exact traced_fault h

theorem traced_faults {faults : Option Fault} (h : ∀ f ∈ faults, f.Traced t) :
    Traced t (faults.toList.flatMap (fault o)) :=
  traced_flatMap fun f hf => traced_fault (h f (Option.mem_toList.1 hf))

@[simp] theorem traced_location : Traced t (location o) := by
  intro w hw
  rw [reports_location] at hw
  obtain ⟨f, hf, rfl⟩ := List.mem_map.1 hw
  exact Fault.traced_of_isLocation (isLocation_of_mem_locationFaults hf)

section
variable (hname : '\n' ∉ name.toList)
include hname

theorem traced_present {field : Field} {c : Occurrence} (hfield : field.name = name) :
    Traced t (present o field category scope c) := by
  refine traced_append.2 ⟨?_, traced_visit⟩
  split
  · exact traced_faultIf (Fault.traced_of_plain (congrArg some hfield) hname)
  · exact traced_nil

theorem traced_required : Traced t (required o name category scope) := by
  unfold required
  split
  · exact traced_present hname rfl
  · exact traced_fault (Fault.traced_of_plain rfl hname)

theorem traced_optional : Traced t (optional o name category scope) := by
  unfold optional
  split
  · exact traced_present hname rfl
  · exact traced_nil

theorem traced_elements {holes : Bool} {values : List Tree} :
    Traced t (elements o name category holes scope values) := by
  refine traced_flatMap fun (value, index) _ => ?_
  simp only [element]
  split
  · exact traced_faultIf (Fault.traced_of_plain rfl hname)
  · exact traced_present hname rfl

theorem traced_withList {steps : List Tree → List Step}
    (h : ∀ list values, o.value.child? name = some list → list.elements? = some values →
      Traced t (steps values)) : Traced t (withList o name steps) := by
  unfold withList
  split
  · exact traced_fault (Fault.traced_of_plain rfl hname)
  · next list hlist =>
    split
    · exact traced_fault (Fault.traced_of_plain rfl hname)
    · next values hvalues => exact h list values hlist hvalues

theorem traced_list : Traced t (list o name category scope) :=
  traced_withList hname fun _ _ _ _ => traced_elements hname

end

theorem traced_binding {target : Option Tree}
    (h : ∀ name, target >>= Tree.identifierName? = some name → t.Traces name) :
    Traced t (binding o scope target) := by
  unfold binding
  split
  · split
    · next name hname => exact traced_faultIf (Fault.traced_of_some rfl (h name hname))
    · exact traced_nil
  · exact traced_nil

section
variable (ho : t.at? o.trail = some o.value)
include ho

/-- The name of an identifier that a node holds. -/
theorem traces_childName {field : String}
    (h : o.value.child? field >>= Tree.identifierName? = some name) : t.Traces name := by
  obtain ⟨c, hc, hname⟩ := Option.bind_eq_some_iff.1 h
  exact Tree.traces_identifierName (Tree.at?_field ho (Tree.child?_eq_some_iff.1 hc).1) hname

theorem traced_bound (field : String) : Traced t (binding o scope (o.value.child? field)) :=
  traced_binding fun _ h => traces_childName ho h

theorem traced_operator (family : OperatorFamily) : Traced t (operator o family) := by
  unfold operator
  split
  · exact traced_fault (Fault.traced_of_none rfl)
  · next token htoken =>
    have hoperator := Tree.at?_field ho (Tree.child?_eq_some_iff.1 htoken).1
    exact traced_faultIf (Fault.traced_of_some rfl (Tree.Quotes.operator hoperator).traces)
  · next found _ hfound =>
    have hoperator := Tree.at?_field ho (Tree.child?_eq_some_iff.1 hfound).1
    exact traced_fault (Fault.traced_of_some rfl (Tree.traces_describe hoperator))

end

end Steps

/-! ## The rules -/

namespace Rule

open Steps

variable {t : Tree} {o : Occurrence} {scope : Scope}

theorem traced_identifier (ho : t.at? o.trail = some o.value) :
    Traced t (identifier o scope) := by
  refine traced_faults fun f hf => ?_
  rw [Option.mem_def] at hf
  unfold Identifier.fault? at hf
  split at hf
  · cases hf
    exact Fault.traced_of_plain rfl (newline_not_mem rfl)
  · next name hname =>
    have hquotes := Tree.Quotes.name (Tree.at?_field ho (Tree.child?_eq_some_iff.1 hname).1)
    split at hf
    · cases hf
      exact Fault.traced_of_some rfl hquotes.traces
    · split at hf
      · cases hf
        exact Fault.traced_of_some rfl hquotes.traces
      · cases hf
  · cases hf
    exact Fault.traced_of_plain rfl (newline_not_mem rfl)

theorem traced_literal (ho : t.at? o.trail = some o.value) : Traced t (literal o) := by
  refine traced_faults fun f hf => ?_
  rw [Option.mem_def] at hf
  unfold Literal.fault? Literal.numberFault? at hf
  split at hf
  · cases hf
    exact Fault.traced_of_none rfl
  · split at hf
    · cases hf
      exact Fault.traced_of_none rfl
    · split at hf
      · cases hf
        exact Fault.traced_of_none rfl
      · cases hf
  · next elements hvalue =>
    cases hf
    exact Fault.traced_of_some rfl (Tree.traces_describe (Tree.at?_field ho hvalue))
  · next fields hvalue =>
    cases hf
    exact Fault.traced_of_some rfl (Tree.traces_describe (Tree.at?_field ho hvalue))
  all_goals cases hf

theorem traced_memberExpression : Traced t (memberExpression o scope) := by
  refine traced_append.2 ⟨traced_required (newline_not_mem rfl), ?_⟩
  split
  · exact traced_required (newline_not_mem rfl)
  · unfold memberName
    split
    · exact traced_fault (Fault.traced_of_plain rfl (newline_not_mem rfl))
    · exact traced_append.2 ⟨traced_faultIf (Fault.traced_of_none rfl), traced_location⟩

theorem traced_catchClauses : Traced t (catchClauses o scope) := by
  rw [catchClauses_eq]
  split
  · exact traced_list (newline_not_mem rfl)
  · exact traced_optional (newline_not_mem rfl)

theorem traced_property {p : Occurrence} {names : SeenNames}
    (hp : t.at? p.trail = some p.value) : Traced t (property p scope names) := by
  have hkey : Traced t (propertyKey p) := by
    unfold propertyKey
    split
    · exact traced_append.2 ⟨traced_faultIf (Fault.traced_of_none rfl), traced_location⟩
    · exact traced_fault (Fault.traced_of_plain rfl (newline_not_mem rfl))
  have haccessor : Traced t (accessor p) := by
    unfold accessor
    split
    · exact traced_faultIf (Fault.traced_of_none rfl)
    · exact traced_faultIf (Fault.traced_of_none rfl)
    · exact traced_nil
  have hconflict : Traced t (conflict p scope names) := by
    unfold conflict
    split
    · next name kind hsignature =>
      obtain ⟨key, hchild, hname⟩ := (signature?_eq_some_iff.1 hsignature).key_name
      have hname : t.Traces name :=
        Tree.traces_keyName (Tree.at?_field hp (Tree.child?_eq_some_iff.1 hchild).1) hname
      refine traced_faults fun f hf => ?_
      rcases seenFault_cases hf with rfl | rfl
      · exact Fault.traced_of_some rfl hname
      · exact Fault.traced_of_some rfl hname
    · exact traced_nil
  simp only [property, traced_append]
  exact ⟨⟨⟨⟨⟨traced_location, traced_faultIf (Fault.traced_of_none rfl)⟩, hkey⟩,
    traced_required (newline_not_mem rfl)⟩, haccessor⟩, hconflict⟩

theorem traced_properties {values : List (Tree × Nat)}
    (h : ∀ value index, (value, index) ∈ values →
      t.at? (o.element "properties" index value).trail = some value) :
    ∀ names : SeenNames, Traced t (properties o scope names values) := by
  induction values with
  | nil => exact fun _ => traced_nil
  | cons p rest ih =>
    obtain ⟨value, index⟩ := p
    intro names
    have hrest := ih fun value index hmem => h value index (List.mem_cons_of_mem _ hmem)
    unfold properties
    split
    · exact traced_append.2 ⟨traced_property (h value index List.mem_cons_self), hrest _⟩
    · refine traced_append.2 ⟨traced_fault ?_, hrest _⟩
      exact Fault.traced_of_plain rfl (newline_not_mem rfl)

section
variable (ho : t.at? o.trail = some o.value)
include ho

theorem traced_objectExpression : Traced t (objectExpression o scope) := by
  refine traced_withList (newline_not_mem rfl) fun list values hlist hvalues => ?_
  refine traced_properties (fun value index hmem => ?_) _
  exact Occurrence.at?_of_element ho hlist hvalues (List.mk_mem_zipIdx_iff_getElem?.1 hmem)

theorem traced_labelUse : Traced t (labelUse o scope) := by
  refine traced_append.2 ⟨traced_optional (newline_not_mem rfl), ?_⟩
  split
  · next name hname =>
    exact traced_faultIf (Fault.traced_of_some rfl (traces_childName ho hname))
  · exact traced_nil

theorem traced_labeledStatement : Traced t (labeledStatement o scope) := by
  refine traced_append.2 ⟨traced_required (newline_not_mem rfl), ?_⟩
  split
  · next name hname =>
    exact traced_append.2 ⟨traced_faultIf (Fault.traced_of_some rfl (traces_childName ho hname)),
      traced_required (newline_not_mem rfl)⟩
  · exact traced_required (newline_not_mem rfl)

theorem traced_updateExpression : Traced t (updateExpression o scope) := by
  refine traced_append.2 ⟨?_, ?_⟩
  · simp only [traced_append]
    exact ⟨⟨traced_operator ho _, traced_required (newline_not_mem rfl)⟩, traced_bound ho _⟩
  · split
    · exact traced_nil
    · exact traced_nil
    · exact traced_fault (Fault.traced_of_none rfl)

theorem traced_parameters : Traced t (parameters o scope) := by
  refine traced_withList (newline_not_mem rfl) fun list params hlist hparams => ?_
  have hparam : ∀ param ∈ params, ∀ name, param.identifierName? = some name → t.Traces name := by
    intro param hmem name hname
    obtain ⟨index, hindex⟩ := List.mem_iff_getElem?.1 hmem
    exact Tree.traces_identifierName (Occurrence.at?_of_element ho hlist hparams hindex) hname
  refine traced_append.2 ⟨traced_append.2 ⟨traced_elements (newline_not_mem rfl), ?_⟩, ?_⟩
  · exact traced_flatMap fun param hmem => traced_binding (hparam param hmem)
  · split
    · refine traced_flatMap fun name hname => traced_fault (Fault.traced_of_some rfl ?_)
      have hlisted : name ∈ params.filterMap Tree.identifierName? := by
        have hcount := List.count_pos_iff.2 hname
        rw [count_repeated] at hcount
        exact List.count_pos_iff.1 (by omega)
      obtain ⟨param, hmem, hparamName⟩ := List.mem_filterMap.1 hlisted
      exact hparam param hmem name hparamName
    · exact traced_nil

theorem traced_function (form : FunctionForm) : Traced t (function form o scope) := by
  refine traced_append.2 ⟨traced_append.2 ⟨?_, traced_parameters ho⟩, ?_⟩
  · refine traced_append.2 ⟨?_, traced_bound ho _⟩
    cases form with
    | declaration => exact traced_required (newline_not_mem rfl)
    | expression => exact traced_optional (newline_not_mem rfl)
  · unfold functionBody
    split
    · exact traced_fault (Fault.traced_of_plain rfl (newline_not_mem rfl))
    · split
      · exact traced_visit
      · exact traced_present (newline_not_mem rfl) rfl

/-- A rule reports only what can be traced to the tree. -/
theorem traced_ofKind (kind : Kind) : Traced t (ofKind kind o scope) := by
  have hfixed : ∀ {test : Bool} {f : Fault}, f.quote? = none → Traced t (faultIf test o f) :=
    fun h => traced_faultIf (Fault.traced_of_none h)
  cases kind with
  | program | arrayExpression =>
    exact traced_withList (newline_not_mem rfl) fun _ _ _ _ => traced_elements (newline_not_mem rfl)
  | functionExpression | functionDeclaration => exact traced_function ho _
  | identifier => exact traced_identifier ho
  | literal => exact traced_literal ho
  | memberExpression => exact traced_memberExpression
  | objectExpression => exact traced_objectExpression ho
  | updateExpression => exact traced_updateExpression ho
  | labeledStatement => exact traced_labeledStatement ho
  | sequenceExpression =>
    refine traced_withList (newline_not_mem rfl) fun _ _ _ _ => ?_
    exact traced_append.2 ⟨hfixed rfl, traced_elements (newline_not_mem rfl)⟩
  | switchStatement =>
    refine traced_append.2 ⟨traced_required (newline_not_mem rfl),
      traced_withList (newline_not_mem rfl) fun _ _ _ _ => ?_⟩
    exact traced_append.2 ⟨traced_elements (newline_not_mem rfl),
      traced_flatMap fun _ _ => traced_fault (Fault.traced_of_none rfl)⟩
  | variableDeclaration =>
    refine traced_append.2 ⟨hfixed rfl, traced_withList (newline_not_mem rfl) fun _ _ _ _ => ?_⟩
    exact traced_append.2 ⟨traced_elements (newline_not_mem rfl), hfixed rfl⟩
  | breakStatement | continueStatement =>
    exact traced_append.2 ⟨hfixed rfl, traced_labelUse ho⟩
  | returnStatement =>
    exact traced_append.2 ⟨hfixed rfl, traced_optional (newline_not_mem rfl)⟩
  | unaryExpression =>
    simp only [ofKind, unaryExpression, traced_append]
    exact ⟨⟨traced_operator ho _, traced_required (newline_not_mem rfl)⟩, hfixed rfl⟩
  | ifStatement =>
    simp only [ofKind, ifStatement, traced_append]
    exact ⟨⟨⟨traced_required (newline_not_mem rfl), traced_required (newline_not_mem rfl)⟩,
      traced_optional (newline_not_mem rfl)⟩, hfixed rfl⟩
  | tryStatement =>
    simp only [ofKind, tryStatement, traced_append]
    exact ⟨⟨⟨traced_required (newline_not_mem rfl), traced_catchClauses⟩,
      traced_optional (newline_not_mem rfl)⟩, hfixed rfl⟩
  | withStatement =>
    simp only [ofKind, withStatement, traced_append]
    exact ⟨⟨hfixed rfl, traced_required (newline_not_mem rfl)⟩,
      traced_required (newline_not_mem rfl)⟩
  | _ =>
    simp (disch := exact newline_not_mem rfl) only [ofKind, assignmentExpression, operation,
      callExpression, conditionalExpression, blockStatement, doWhileStatement, whileStatement,
      forInStatement, forStatement, loopBody, catchClause, switchCase, variableDeclarator,
      traced_append, traced_nil, traced_required, traced_optional, traced_list,
      traced_operator ho, traced_bound ho, and_self]

end

end Rule

/-- What is reported at a visit can be traced to the tree. -/
theorem Visit.traced_own {t : Tree} {v : Visit}
    (hv : t.at? v.occurrence.trail = some v.occurrence.value) {w : Violation} (h : w ∈ v.own) :
    w.fault.Traced t := by
  cases hkind : v.occurrence.value.nodeKind with
  | error fault =>
    rw [own, hkind, List.mem_singleton] at h
    subst h
    cases Tree.nodeKind_eq_error_iff.1 hkind with
    | notObject => exact Fault.traced_of_some rfl (Tree.traces_describe hv)
    | untyped => exact Fault.traced_of_none rfl
    | unknown htype =>
      exact Fault.traced_of_some rfl (Tree.Quotes.type (Tree.at?_field hv htype)).traces
  | ok kind =>
    have hsome := Tree.nodeKind_eq_ok_iff.1 hkind
    have hsteps : Steps.Traced t v.steps := by
      rw [steps_of_kind hsome]
      refine Steps.traced_append.2 ⟨Steps.traced_location, ?_⟩
      cases v.role with
      | node => exact Rule.traced_ofKind hv kind
      | functionBody => exact Steps.traced_list (newline_not_mem rfl)
    rw [own_of_kind hsome] at h
    exact hsteps w h

/-- **The line breaks of a message come from the tree.**  A text that a message takes over has
    none, or it is a type, a name, an operator or the value of a key in the tree. -/
theorem Tree.traces_of_mem_violations {strict : Bool} {t : Tree} {w : Violation}
    (h : w ∈ t.violations strict) : ∀ s ∈ w.quotes, t.Traces s := by
  obtain ⟨v, hv, hown⟩ := Tree.mem_violations_iff.1 h
  intro s hs
  rcases List.mem_cons.1 hs with rfl | hs
  · exact traces_describe (Tree.at?_owner h)
  · exact Visit.traced_own hv.at? hown s (Option.mem_toList.1 hs)

end ScriptTree
