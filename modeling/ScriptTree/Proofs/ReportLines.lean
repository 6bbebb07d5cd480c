/-
  The lines of a report.

  A report gives each diagnostic a line.  What a message takes over from the tree is not
  escaped, though, so a line break in it breaks the line.

  * `lines`: the lines of a text; `lines_intercalate`: those of texts joined by line breaks.
  * `length_lines_report`: a report has a line for each violation, and one more for each line
    break in what the messages take over.
  * `report_lines`: such line breaks come from the tree, and without them each line of a
    report is a diagnostic.
-/
import ScriptTree.Proofs.Quoting
import ScriptTree.Proofs.ReportOrder

namespace ScriptTree

/-! ## Lines -/

/-- The lines of a text: what stands before, between and behind its line breaks. -/
def lines (s : String) : List String := (s.toList.splitOn '\n').map String.ofList

theorem length_lines (s : String) : (lines s).length = lineBreaks s + 1 := by
  have hsplit : ∀ text : List Char,
      (text.splitOn '\n').length = text.count '\n' + 1 := by
    intro text
    induction text with
    | nil => rfl
    | cons c text ih =>
      rw [List.splitOn_cons_eq_if_modifyHead, List.count_cons]
      split
      · rw [List.length_cons, ih]
      · rw [List.length_modifyHead, ih]
  rw [lines, List.length_map, hsplit]
  rfl

theorem lines_of_not_mem {s : String} (h : '\n' ∉ s.toList) : lines s = [s] := by
  rw [lines, List.splitOn_eq_singleton h, List.map_singleton, String.ofList_toList]

/-- Texts that are joined by line breaks keep their lines. -/
theorem lines_intercalate {texts : List String} (h : texts ≠ []) :
    lines ("\n".intercalate texts) = texts.flatMap lines := by
  have hbreak : "\n".toList = ['\n'] := by decide
  have hsplit : ∀ first : List Char, ∀ rest : List (List Char),
      (['\n'].intercalate (first :: rest)).splitOn '\n' =
        (first :: rest).flatMap (·.splitOn '\n') := by
    intro first rest
    induction rest generalizing first with
    | nil => rw [List.intercalate_singleton, List.flatMap_singleton]
    | cons next rest ih =>
      rw [List.intercalate_cons_cons, List.append_assoc, List.singleton_append,
        List.splitOn_append_cons_self, ih]
      exact List.flatMap_cons.symm
  cases texts with
  | nil => exact absurd rfl h
  | cons first rest =>
    rw [lines, String.toList_intercalate, hbreak, List.map_cons, hsplit, ← List.map_cons,
      List.flatMap_map, List.map_flatMap]
    rfl

/-! ## Reports -/

namespace Diagnostic

theorem lineBreaks_placeSuffix (p : Option Position) : lineBreaks (placeSuffix p) = 0 := by
  cases p with
  | none => exact lineBreaks_eq_zero (newline_not_mem rfl)
  | some p =>
    simp (disch := exact newline_not_mem rfl) only [placeSuffix, lineBreaks_append,
      lineBreaks_eq_zero, lineBreaks_repr, Nat.add_zero]

/-- A line has the line breaks of its message. -/
theorem lineBreaks_line {d : Diagnostic} (h : '\n' ∉ d.file.toList) :
    lineBreaks d.line = lineBreaks d.message := by
  have hlabel : lineBreaks label = 0 := lineBreaks_eq_zero (newline_not_mem rfl)
  simp (disch := exact newline_not_mem rfl) only [line, place, lineBreaks_append,
    lineBreaks_eq_zero, lineBreaks_placeSuffix, hlabel, lineBreaks_eq_zero h, Nat.zero_add,
    Nat.add_zero]

theorem lines_report {ds arranged : List Diagnostic} (h : Arranged ds arranged) (hds : ds ≠ []) :
    lines (report ds) = arranged.flatMap fun d => lines d.line := by
  have harranged : arranged ≠ [] := by
    rintro rfl
    exact hds h.perm.symm.eq_nil
  rw [report, ← (arranged_arrange ds).unique h, lines_intercalate, List.flatMap_map]
  simpa using harranged

end Diagnostic

namespace Tree

variable {strict : Bool} {t : Tree} {file : String}

/-- The violations of a tree as they are shown for a file. -/
def diagnostics (strict : Bool) (file : String) (t : Tree) : List Diagnostic :=
  (t.violations strict).map (.ofViolation file)

theorem diagnostics_ne_nil (h : t.violations strict ≠ []) : t.diagnostics strict file ≠ [] := by
  simpa [diagnostics] using h

/-- A report has a line for each violation, and one more for each line break in what the
    messages take over. -/
theorem length_lines_report (hfile : '\n' ∉ file.toList) (hfound : t.violations strict ≠ []) :
    (lines (Diagnostic.report (t.diagnostics strict file))).length =
      (t.violations strict).length +
        lineBreaks (String.join ((t.violations strict).flatMap Violation.quotes)) := by
  have hlength : ∀ ws : List Violation,
      ((ws.map (Diagnostic.ofViolation file)).flatMap fun d => lines d.line).length =
        ws.length + lineBreaks (String.join (ws.flatMap Violation.quotes)) := by
    intro ws
    induction ws with
    | nil => rfl
    | cons w ws ih =>
      have hline := Diagnostic.lineBreaks_line (d := .ofViolation file w) hfile
      have hmessage : lineBreaks (Diagnostic.ofViolation file w).message = _ :=
        w.lineBreaks_message
      rw [List.map_cons, List.flatMap_cons, List.length_append, ih, length_lines, hline, hmessage,
        List.flatMap_cons, lineBreaks_join_append, List.length_cons]
      omega
  have harranged := Diagnostic.arranged_arrange (t.diagnostics strict file)
  rw [Diagnostic.lines_report harranged (diagnostics_ne_nil hfound),
    (harranged.perm.flatMap_right _).length_eq]
  exact hlength _

/-- No string that a message may take over has a line break, so no message has. -/
theorem newline_not_mem_message {w : Violation} (hquotes : ∀ s, t.Quotes s → '\n' ∉ s.toList)
    (h : w ∈ t.violations strict) : '\n' ∉ w.message.toList := by
  have hnone : '\n' ∉ (String.join w.quotes).toList := by
    rw [String.toList_join, List.mem_flatMap]
    rintro ⟨s, hs, hmem⟩
    exact hquotes s (traces_of_mem_violations h s hs hmem) hmem
  exact List.count_eq_zero.1 (w.lineBreaks_message.trans (lineBreaks_eq_zero hnone))

/-- **The lines of a report are those of its diagnostics.**  They are split at the line breaks
    of their messages, so that there is a line for each violation, and one more for each line
    break in what the messages take over.  A text with a line break that is taken over is a
    type, a name, an operator or the value of a key in the tree.  If none of these has a line
    break, each line is one diagnostic. -/
theorem report_lines (hfile : '\n' ∉ file.toList) (hfound : t.violations strict ≠ []) :
    ∃ arranged, Diagnostic.Arranged (t.diagnostics strict file) arranged ∧
      lines (Diagnostic.report (t.diagnostics strict file)) =
        arranged.flatMap (fun d => lines d.line) ∧
      (lines (Diagnostic.report (t.diagnostics strict file))).length =
        (t.violations strict).length +
          lineBreaks (String.join ((t.violations strict).flatMap Violation.quotes)) ∧
      (∀ w ∈ t.violations strict, ∀ s ∈ w.quotes, '\n' ∈ s.toList → t.Quotes s) ∧
      ((∀ s, t.Quotes s → '\n' ∉ s.toList) →
        lines (Diagnostic.report (t.diagnostics strict file)) = arranged.map Diagnostic.line ∧
        arranged.length = (t.violations strict).length) := by
  have harranged := Diagnostic.arranged_arrange (t.diagnostics strict file)
  have hlines := Diagnostic.lines_report harranged (diagnostics_ne_nil hfound)
  refine ⟨_, harranged, hlines, length_lines_report hfile hfound,
    fun w hw => traces_of_mem_violations hw, fun hquotes => ⟨?_, ?_⟩⟩
  · have hone : ∀ d ∈ Diagnostic.arrange (t.diagnostics strict file), lines d.line = [d.line] := by
      intro d hd
      obtain ⟨w, hw, rfl⟩ := List.mem_map.1 (harranged.perm.mem_iff.1 hd)
      have hmessage := List.count_eq_zero.2 (newline_not_mem_message hquotes hw)
      have hline := Diagnostic.lineBreaks_line (d := .ofViolation file w) hfile
      exact lines_of_not_mem (List.count_eq_zero.1 (hline.trans hmessage))
    rw [hlines, List.flatMap_congr hone, ← List.map_eq_flatMap]
  · rw [harranged.perm.length_eq, diagnostics, List.length_map]

/-- An object with a type. -/
def typed (name : String) : Tree := .object [("type", .string name)]

theorem violations_typed (strict : Bool) {name : String} (h : Kind.ofName? name = none) :
    (typed name).violations strict = [⟨.root (typed name), .unknownType name⟩] := by
  have hnode : (typed name).nodeKind = .error (.unknownType name) := by
    simp [nodeKind, typed, isObject, typeName?, get?, string?, h]
  rw [violations, violations_eq]
  simp only [Occurrence.root, hnode]

theorem quotes_typed {name s : String} (h : (typed name).Quotes s) :
    s = name ∨ s = Fault.quoted name := by
  -- there is nothing in the object but its type, and nothing in that
  have hat : ∀ (trail : List Selector) (selector : Selector) (value : Tree),
      (typed name).at? (selector :: trail) = some value → value = .string name := by
    intro trail
    induction trail with
    | nil =>
      intro selector value hvalue
      cases selector with
      | field field =>
        by_cases hfield : field = "type"
        · simpa [at?, select?, typed, get?, hfield, eq_comm] using hvalue
        · simp [at?, select?, typed, get?, List.lookup_cons, beq_false_of_ne hfield] at hvalue
      | element => cases hvalue
    | cons first trail ih =>
      intro selector value hvalue
      obtain ⟨holder, hholder, hvalue⟩ := Option.bind_eq_some_iff.1 hvalue
      obtain rfl := ih first holder hholder
      cases selector <;> cases hvalue
  cases h with
  | type hs | name hs | key hs => exact Or.inl (Tree.string.inj (hat _ _ _ hs))
  | operator hs => exact Or.inr (congrArg Fault.quoted (Tree.string.inj (hat _ _ _ hs)))

/-- A node of an unknown type is reported in one line. -/
theorem report_lines_typed :
    lines (Diagnostic.report ((typed "X").diagnostics false "t.json")) =
      ["ValidationError: t.json X: Unknown node type \"X\""] := by
  have hviolations := violations_typed false (show Kind.ofName? "X" = none by decide)
  have hfound : (typed "X").violations false ≠ [] := by
    rw [hviolations]
    exact List.cons_ne_nil _ _
  have hfile : '\n' ∉ "t.json".toList := newline_not_mem rfl
  obtain ⟨arranged, harranged, -, -, -, hone⟩ := report_lines hfile hfound
  have hquotes : ∀ s, (typed "X").Quotes s → '\n' ∉ s.toList := by
    intro s hs
    rcases quotes_typed hs with rfl | rfl
    · exact newline_not_mem rfl
    · decide
  have hshown : (typed "X").diagnostics false "t.json" =
      [.ofViolation "t.json" ⟨.root (typed "X"), .unknownType "X"⟩] := by
    rw [diagnostics, hviolations, List.map_singleton]
  rw [hshown] at harranged
  rw [(hone hquotes).1, List.perm_singleton.1 harranged.perm]
  decide +kernel

/-- A type with a line break gives three lines for one violation. -/
theorem brokenType_reported : '\n' ∉ "t.json".toList ∧
    (typed "a\nb").violations false ≠ [] ∧
    (lines (Diagnostic.report ((typed "a\nb").diagnostics false "t.json"))).length ≠
      ((typed "a\nb").violations false).length := by
  have hfile : '\n' ∉ "t.json".toList := newline_not_mem rfl
  have hviolations := violations_typed false (show Kind.ofName? "a\nb" = none by decide)
  have hfound : (typed "a\nb").violations false ≠ [] := by
    rw [hviolations]
    exact List.cons_ne_nil _ _
  refine ⟨hfile, hfound, ?_⟩
  rw [length_lines_report hfile hfound, hviolations]
  decide

end Tree

end ScriptTree
