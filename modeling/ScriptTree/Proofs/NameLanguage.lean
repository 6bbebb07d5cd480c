/-
  The language of names.

  Which characters a name is made of is decided by two properties of Unicode, but for ASCII
  it is decided without looking at their ranges.

  * `Name.MayStart`, `Name.MayFollow`: the characters that may start a name and those that
    may follow in one, by the properties alone; the short cuts for ASCII agree with them
    (`isStart_iff`, `isPart_iff`).
  * `uncovered`: the ranges that are left of one list when the ranges of another are taken
    away.  Nothing is left of ID_Start without ID_Continue, so what may start a name may
    also follow in one (`mayFollow_of_mayStart`).
  * `names_spelled`: names are spelled by these characters, and a part from the start of a
    name and two names in a row are names again.
-/
import ScriptTree.Lexical.Name

namespace ScriptTree

/-! ## Ranges of code points -/

section
variable {ranges others : List (Nat × Nat)} {range : Nat × Nat} {c : Char}

theorem inRanges_iff :
    inRanges ranges c = true ↔ ∃ range ∈ ranges, range.1 ≤ c.toNat ∧ c.toNat ≤ range.2 := by
  simp only [inRanges, List.any_eq_true, Bool.and_eq_true, decide_eq_true_eq]

/-- For a character below a bound, only the ranges matter that begin below it. -/
theorem inRanges_filter {bound : Nat} (h : c.toNat < bound) :
    inRanges (ranges.filter (·.1 < bound)) c = inRanges ranges c := by
  rw [Bool.eq_iff_iff, inRanges_iff, inRanges_iff]
  constructor
  · rintro ⟨range, hrange, hc⟩
    exact ⟨range, (List.mem_filter.1 hrange).1, hc⟩
  · rintro ⟨range, hrange, hc⟩
    refine ⟨range, List.mem_filter.2 ⟨hrange, ?_⟩, hc⟩
    exact decide_eq_true (Nat.lt_of_le_of_lt hc.1 h)

/-- The ranges that are left after each of the others has taken away what it holds at the
    front.  For lists in ascending order these are the ranges that none of the others holds. -/
def uncovered (ranges others : List (Nat × Nat)) : List (Nat × Nat) :=
  others.foldl (fun left other =>
    left.dropWhile fun range => other.1 ≤ range.1 && range.2 ≤ other.2) ranges

theorem covered_or_mem_uncovered (others : List (Nat × Nat)) (h : range ∈ ranges) :
    (∃ other ∈ others, other.1 ≤ range.1 ∧ range.2 ≤ other.2) ∨
      range ∈ uncovered ranges others := by
  induction others generalizing ranges with
  | nil => exact Or.inr h
  | cons other others ih =>
    let holds := fun range : Nat × Nat => decide (other.1 ≤ range.1) && decide (range.2 ≤ other.2)
    rw [← List.takeWhile_append_dropWhile (p := holds) (l := ranges)] at h
    rcases List.mem_append.1 h with h | h
    · have hholds := List.all_eq_true.1 List.all_takeWhile range h
      simp only [holds, Bool.and_eq_true, decide_eq_true_eq] at hholds
      exact Or.inl ⟨other, List.mem_cons_self, hholds⟩
    · rcases ih h with ⟨found, hfound, hheld⟩ | hleft
      · exact Or.inl ⟨found, List.mem_cons_of_mem _ hfound, hheld⟩
      · exact Or.inr hleft

theorem inRanges_of_uncovered (h : uncovered ranges others = []) (hc : inRanges ranges c = true) :
    inRanges others c = true := by
  obtain ⟨range, hrange, hfirst, hlast⟩ := inRanges_iff.1 hc
  rcases covered_or_mem_uncovered others hrange with ⟨other, hother, hheld⟩ | hleft
  · exact inRanges_iff.2 ⟨other, hother, Nat.le_trans hheld.1 hfirst, Nat.le_trans hlast hheld.2⟩
  · rw [h] at hleft
    cases hleft

end

/-! ## The characters of a name -/

namespace Name

variable {c : Char}

/-- A character that may start a name: a dollar sign, an underscore, or one with the property
    ID_Start. -/
def MayStart (c : Char) : Prop := c = '$' ∨ c = '_' ∨ inRanges IdStart.ranges c = true

/-- A character that may follow in a name: a dollar sign, an underscore, one of the two
    joiners, or one with the property ID_Continue. -/
def MayFollow (c : Char) : Prop :=
  c = '$' ∨ c = '_' ∨ c = zeroWidthNonJoiner ∨ c = zeroWidthJoiner ∨
    inRanges IdContinue.ranges c = true

/-- A text that is made of characters of a name, of which there is at least one. -/
def Spelled (text : List Char) : Prop :=
  ∃ first rest, text = first :: rest ∧ MayStart first ∧ ∀ c ∈ rest, MayFollow c

theorem isUpper_iff : c.isUpper = true ↔ 0x41 ≤ c.toNat ∧ c.toNat ≤ 0x5A := by
  show decide ('A'.val ≤ c.val ∧ c.val ≤ 'Z'.val) = true ↔ _
  rw [decide_eq_true_eq, UInt32.le_iff_toNat_le, UInt32.le_iff_toNat_le]
  rfl

theorem isLower_iff : c.isLower = true ↔ 0x61 ≤ c.toNat ∧ c.toNat ≤ 0x7A := by
  show (decide ('a'.val ≤ c.val) && decide (c.val ≤ 'z'.val)) = true ↔ _
  rw [Bool.and_eq_true, decide_eq_true_eq, decide_eq_true_eq, UInt32.le_iff_toNat_le,
    UInt32.le_iff_toNat_le]
  rfl

theorem isAlpha_iff : c.isAlpha = true ↔
    0x41 ≤ c.toNat ∧ c.toNat ≤ 0x5A ∨ 0x61 ≤ c.toNat ∧ c.toNat ≤ 0x7A := by
  rw [← isUpper_iff, ← isLower_iff]
  exact Bool.or_eq_true_iff

/-- The letters of ASCII are its characters with the property ID_Start. -/
theorem inRanges_idStart_of_ascii (h : c.toNat < 128) :
    inRanges IdStart.ranges c = true ↔ c.isAlpha = true := by
  have hascii : IdStart.ranges.filter (·.1 < 128) = [(0x41, 0x5A), (0x61, 0x7A)] := by
    decide +kernel
  rw [← inRanges_filter h, hascii, inRanges_iff, isAlpha_iff]
  simp

/-- The letters and digits of ASCII and its underscore are its characters with the property
    ID_Continue. -/
theorem inRanges_idContinue_of_ascii (h : c.toNat < 128) :
    inRanges IdContinue.ranges c = true ↔ c.isAlphanum = true ∨ c = '_' := by
  have hascii : IdContinue.ranges.filter (·.1 < 128) =
      [(0x30, 0x39), (0x41, 0x5A), (0x5F, 0x5F), (0x61, 0x7A)] := by
    decide +kernel
  have hdigit : c.isDigit = true ↔ 0x30 ≤ c.toNat ∧ c.toNat ≤ 0x39 := Char.isDigit_iff_toNat
  have hunderscore : c = '_' ↔ c.toNat = 0x5F := Char.toNat_inj.symm
  rw [← inRanges_filter h, hascii, inRanges_iff, Char.isAlphanum, Bool.or_eq_true, isAlpha_iff,
    hdigit, hunderscore]
  simp only [List.mem_cons, List.not_mem_nil, or_false, exists_eq_or_imp, exists_eq_left]
  omega

theorem ne_of_not_ascii {other : Char} (h : ¬ c.toNat < 128) (hother : other.toNat < 128) :
    c ≠ other := by
  rintro rfl
  exact h hother

theorem isStart_iff : isStart c = true ↔ MayStart c := by
  unfold isStart MayStart
  split
  · next h =>
    rw [inRanges_idStart_of_ascii h]
    simp only [Bool.or_eq_true, decide_eq_true_eq]
    grind
  · next h =>
    have hdollar : c ≠ '$' := ne_of_not_ascii h (by decide)
    have hunderscore : c ≠ '_' := ne_of_not_ascii h (by decide)
    simp only [hdollar, hunderscore, false_or]

theorem isPart_iff : isPart c = true ↔ MayFollow c := by
  unfold isPart MayFollow
  split
  · next h =>
    have hnonJoiner : c ≠ zeroWidthNonJoiner := by
      rintro rfl
      exact absurd h (by decide)
    have hjoiner : c ≠ zeroWidthJoiner := by
      rintro rfl
      exact absurd h (by decide)
    rw [inRanges_idContinue_of_ascii h]
    simp only [Bool.or_eq_true, decide_eq_true_eq, hnonJoiner, hjoiner, false_or]
    grind
  · next h =>
    have hdollar : c ≠ '$' := ne_of_not_ascii h (by decide)
    have hunderscore : c ≠ '_' := ne_of_not_ascii h (by decide)
    simp only [Bool.or_eq_true, decide_eq_true_eq, hdollar, hunderscore, false_or]
    grind

/-- What may start a name may follow in one: ID_Continue holds all of ID_Start. -/
theorem mayFollow_of_mayStart (h : MayStart c) : MayFollow c := by
  have hcovered : uncovered IdStart.ranges IdContinue.ranges = [] := by decide +kernel
  rcases h with rfl | rfl | h
  · exact Or.inl rfl
  · exact Or.inr (Or.inl rfl)
  · exact Or.inr (Or.inr (Or.inr (Or.inr (inRanges_of_uncovered hcovered h))))

/-! ## Names -/

theorem isNameOf_iff {text : List Char} : isNameOf text = true ↔ Spelled text := by
  cases text with
  | nil => simp [isNameOf, Spelled]
  | cons first rest =>
    rw [isNameOf, Bool.and_eq_true, List.all_eq_true, isStart_iff]
    simp only [isPart_iff]
    constructor
    · rintro ⟨hfirst, hrest⟩
      exact ⟨first, rest, rfl, hfirst, hrest⟩
    · rintro ⟨_, _, heq, hfirst, hrest⟩
      cases heq
      exact ⟨hfirst, hrest⟩

theorem isName_iff {s : String} : isName s = true ↔ Spelled s.toList := isNameOf_iff

variable {text other : List Char}

theorem Spelled.of_beginning (h : Spelled text) (hne : other ≠ []) (hbegins : other <+: text) :
    Spelled other := by
  obtain ⟨first, rest, rfl, hfirst, hrest⟩ := h
  rcases List.prefix_cons_iff.1 hbegins with hnil | ⟨start, rfl, hstart⟩
  · exact absurd hnil hne
  · exact ⟨first, start, rfl, hfirst, fun c hc => hrest c (hstart.subset hc)⟩

theorem Spelled.mayFollow (h : Spelled text) : ∀ c ∈ text, MayFollow c := by
  obtain ⟨first, rest, rfl, hfirst, hrest⟩ := h
  exact List.forall_mem_cons.2 ⟨mayFollow_of_mayStart hfirst, hrest⟩

theorem Spelled.append (h : Spelled text) (hother : ∀ c ∈ other, MayFollow c) :
    Spelled (text ++ other) := by
  obtain ⟨first, rest, rfl, hfirst, hrest⟩ := h
  exact ⟨first, rest ++ other, rfl, hfirst, List.forall_mem_append.2 ⟨hrest, hother⟩⟩

end Name

/-- **Names are a language of two properties.**  A string is a name iff it is not empty, its
    first character is a dollar sign, an underscore or has ID_Start, and every later one is a
    dollar sign, an underscore, a joiner or has ID_Continue.  So a part from the start of a
    name is a name unless it is empty, and two names in a row are a name. -/
theorem names_spelled :
    (∀ s, Name.isName s = true ↔ Name.Spelled s.toList) ∧
    (∀ s start : String, Name.isName s = true → start ≠ "" → start.toList <+: s.toList →
      Name.isName start = true) ∧
    (∀ s t : String, Name.isName s = true → Name.isName t = true →
      Name.isName (s ++ t) = true) := by
  refine ⟨fun s => Name.isName_iff, fun s start hs hne hbegins => ?_, fun s t hs ht => ?_⟩
  · have hstart : start.toList ≠ [] := fun h => hne (String.toList_eq_nil_iff.1 h)
    exact Name.isName_iff.2 ((Name.isName_iff.1 hs).of_beginning hstart hbegins)
  · rw [Name.isName_iff, String.toList_append]
    exact (Name.isName_iff.1 hs).append (Name.isName_iff.1 ht).mayFollow

/-- A letter, a joiner and a digit are a name.  The letter alone is one too, and so is the name
    behind another one. -/
theorem names_spelled_letters :
    Name.Spelled "ℵ\u200d1".toList ∧ Name.isName "ℵ" = true ∧
      Name.isName ("ñ$" ++ "ℵ\u200d1") = true := by
  obtain ⟨hspelled, hbegins, hjoin⟩ := names_spelled
  have hname : Name.isName "ℵ\u200d1" = true := by decide +kernel
  exact ⟨(hspelled _).1 hname, hbegins _ "ℵ" hname (by decide) (by decide),
    hjoin _ _ (by decide +kernel) hname⟩

end ScriptTree
