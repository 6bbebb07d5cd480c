/-
  The snippets of diagnostics.

  * `OneLine`: a text without control characters.  Numbers, strings and whole documents are
    written as such texts, whatever their strings hold (`Document.oneLine_write`).
  * `Diagnostic.snippet_fits`: a snippet is the text of a value up to a limit, and stays in
    one line.
-/
import ScriptTree.Diagnostic
import ScriptTree.Proofs.NumeralText

namespace ScriptTree

/-- A text without control characters, so that it has no line breaks. -/
def OneLine (text : List Char) : Prop := ∀ c ∈ text, 0x20 ≤ c.toNat

section
variable {text rest : List Char} {c : Char}

@[simp] theorem oneLine_nil : OneLine [] := List.forall_mem_nil _

@[simp] theorem oneLine_cons : OneLine (c :: text) ↔ 0x20 ≤ c.toNat ∧ OneLine text :=
  List.forall_mem_cons

@[simp] theorem oneLine_append : OneLine (text ++ rest) ↔ OneLine text ∧ OneLine rest :=
  List.forall_mem_append

theorem OneLine.subset (h : OneLine text) (hrest : rest ⊆ text) : OneLine rest :=
  fun c hc => h c (hrest hc)

theorem OneLine.not_mem_newline (h : OneLine text) : '\n' ∉ text :=
  fun hmem => absurd (h _ hmem) (by decide)

theorem oneLine_of_isDigit (h : ∀ c ∈ text, c.isDigit = true) : OneLine text := by
  intro c hc
  have hdigit : 0x30 ≤ c.toNat := (Char.isDigit_iff_toNat.1 (h c hc)).1
  omega

end

/-! ## Numbers -/

theorem oneLine_toDigits (n : Nat) : OneLine (Nat.toDigits 10 n) :=
  oneLine_of_isDigit fun _ => Numeral.isDigit_toDigits

theorem oneLine_zeros (n : Nat) : OneLine (List.replicate n '0') :=
  oneLine_of_isDigit fun _ => Numeral.isDigit_zeros

namespace Decimal

theorem oneLine_positional (pointZero : Bool) (d : Decimal) :
    OneLine (d.positional pointZero) := by
  have hdigits := oneLine_toDigits d.digits
  have hfraction : OneLine (if pointZero then ['.', '0'] else []) := by
    split <;> simp
  simp only [positional]
  generalize (if pointZero then ['.', '0'] else []) = fraction at hfraction
  split
  · simp [hdigits, oneLine_zeros, hfraction]
  · split
    · simp [hdigits.subset (List.take_subset _ _), hdigits.subset (List.drop_subset _ _)]
    · simp [hdigits, oneLine_zeros]

theorem oneLine_scientific (d : Decimal) : OneLine d.scientific := by
  have hdigits := oneLine_toDigits d.digits
  have hsign : 0x20 ≤ (if d.leading < 0 then '-' else '+').toNat := by
    split <;> decide
  simp only [scientific]
  generalize (if d.leading < 0 then '-' else '+') = sign at hsign
  split
  · exact oneLine_nil
  · next hone =>
    rw [hone, oneLine_cons] at hdigits
    simp [hdigits, hsign, oneLine_toDigits]
  · next hmore =>
    rw [hmore, oneLine_cons] at hdigits
    simp [hdigits, hsign, oneLine_toDigits]

theorem oneLine_text (style : NumberStyle) (d : Decimal) : OneLine (d.text style) := by
  unfold text
  split
  · exact d.oneLine_positional _
  · exact d.oneLine_scientific

end Decimal

theorem Double.oneLine_text (style : NumberStyle) (x : Double) : OneLine (x.text style) := by
  refine oneLine_append.2 ⟨?_, x.shortest.oneLine_text style⟩
  cases x.negative <;> simp

theorem Numeral.oneLine_write {rest : List Char} (x : Double) (h : OneLine rest) :
    OneLine (write x rest) := by
  unfold write
  split
  · exact oneLine_append.2 ⟨x.oneLine_text style, h⟩
  · simp [h]

/-! ## Strings -/

namespace Quoted

theorem oneLine_hexDigit (n : Nat) : 0x20 ≤ (hexDigit n).toNat := by
  have hdigit : ∀ m < 16, 0x20 ≤ (Nat.digitChar m).toNat := by decide
  exact hdigit _ (Nat.mod_lt _ (by decide))

/-- A control character is never written as it stands. -/
theorem oneLine_escape (c : Char) : OneLine (escape c) := by
  unfold escape
  split
  case h_8 =>
    split
    · simp [oneLine_hexDigit]
    · next h => simpa using h
  all_goals simp

theorem oneLine_write {rest : List Char} (s : String) (h : OneLine rest) :
    OneLine (write s rest) := by
  have hescaped : OneLine (s.toList.flatMap escape) := by
    intro c hc
    obtain ⟨x, -, hx⟩ := List.mem_flatMap.1 hc
    exact oneLine_escape x c hx
  simp [write, hescaped, h]

end Quoted

/-! ## Documents -/

namespace Document

mutual

/-- A document is written in one line, before any text of one line. -/
theorem oneLine_write {rest : List Char} (h : OneLine rest) :
    ∀ d : Document, OneLine (d.write rest)
  | .null => by simp [write, h]
  | .bool true => by simp [write, h]
  | .bool false => by simp [write, h]
  | .number x => Numeral.oneLine_write x h
  | .string s => Quoted.oneLine_write s h
  | .array elements => by
    have hclosed : OneLine (']' :: rest) := by simp [h]
    simp [write, oneLine_writeElements hclosed elements]
  | .object members => by
    have hclosed : OneLine ('\x7d' :: rest) := by simp [h]
    simp [write, oneLine_writeMembers hclosed members]

theorem oneLine_writeElements {rest : List Char} (h : OneLine rest) :
    ∀ elements : List Document, OneLine (writeElements elements rest)
  | [] => h
  | [element] => oneLine_write h element
  | element :: next :: elements => by
    refine oneLine_write (oneLine_cons.2 ⟨by decide, ?_⟩) element
    exact oneLine_writeElements h (next :: elements)

theorem oneLine_writeMembers {rest : List Char} (h : OneLine rest) :
    ∀ members : List (String × Document), OneLine (writeMembers members rest)
  | [] => h
  | [(name, value)] =>
    Quoted.oneLine_write name (oneLine_cons.2 ⟨by decide, oneLine_write h value⟩)
  | (name, value) :: next :: members => by
    refine Quoted.oneLine_write name (oneLine_cons.2 ⟨by decide, ?_⟩)
    refine oneLine_write (oneLine_cons.2 ⟨by decide, ?_⟩) value
    exact oneLine_writeMembers h (next :: members)

end

end Document

theorem Tree.oneLine_render (t : Tree) : OneLine t.render.toList := by
  rw [render, Document.render, String.toList_ofList]
  exact t.toDocument.oneLine_write oneLine_nil

/-! ## Snippets -/

theorem length_cut_le (text : List Char) : (cut text).length ≤ snippetLimit + 3 := by
  unfold cut
  split
  · omega
  · simp only [List.length_append, List.length_take, List.length_cons, List.length_nil]
    omega

theorem OneLine.cut {text : List Char} (h : OneLine text) : OneLine (cut text) := by
  unfold ScriptTree.cut
  split
  · exact h
  · exact oneLine_append.2 ⟨h.subset (List.take_subset _ _), by simp⟩

namespace Diagnostic

/-- **A snippet is the start of a text of one line.**  It is the text of the value that a
    violation is charged to, whole if it has at most eighty characters, and else its first
    eighty followed by three dots.  So it has at most eighty-three characters, and whatever
    strings the value holds, none of these is a control character. -/
theorem snippet_fits (file : String) (v : Violation) :
    (ofViolation file v).snippet =
      (if v.owner.value.render.length ≤ 80 then v.owner.value.render
        else String.ofList (v.owner.value.render.toList.take 80) ++ "...") ∧
    (ofViolation file v).snippet.length ≤ 83 ∧
    ∀ c ∈ (ofViolation file v).snippet.toList, 0x20 ≤ c.toNat ∧ c ≠ '\n' := by
  have htext : (ofViolation file v).snippet.toList = cut v.owner.value.render.toList :=
    String.toList_ofList
  have hline : OneLine (ofViolation file v).snippet.toList := by
    rw [htext]
    exact v.owner.value.oneLine_render.cut
  refine ⟨?_, ?_, fun c hc => ⟨hline c hc, ?_⟩⟩
  · have hdots : "...".toList = ['.', '.', '.'] := by decide
    rw [← String.toList_inj, htext]
    simp only [cut, snippetLimit, String.length_toList]
    split
    · rfl
    · rw [String.toList_append, String.toList_ofList, hdots]
  · rw [← String.length_toList, htext]
    exact length_cut_le _
  · rintro rfl
    exact hline.not_mem_newline hc

/-- An object that is named by a line break behind many letters: its snippet ends between the
    two characters that stand for the line break. -/
theorem snippet_fits_lineBreak :
    let name := String.ofList (List.replicate 77 'a' ++ ['\n'])
    let v : Violation := ⟨.root (.object [(name, .null)]), .missingType⟩
    (ofViolation "t.json" v).snippet =
      String.ofList ('\x7b' :: '"' :: List.replicate 77 'a' ++ ['\\', '.', '.', '.']) ∧
    '\n' ∉ (ofViolation "t.json" v).snippet.toList := by
  intro name v
  obtain ⟨hsnippet, -, hline⟩ := snippet_fits "t.json" v
  refine ⟨hsnippet.trans (by decide +kernel), fun hmem => (hline _ hmem).2 rfl⟩

end Diagnostic

end ScriptTree
