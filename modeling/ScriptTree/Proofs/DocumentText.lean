/-
  The text of a document is read back.

  * `Quoted.scan?_write`: a string is read back from its quoted form.
  * `Document.tokens`: the tokens of a document as it is written.  They are those of its
    text (`scanFrom?_write`), and they spell the document (`steps?_tokens`).
  * `Document.Finite`: no number of a document is infinite or NaN.
  * `read?_render`: such a document is read back from its text, and what is read is such
    a document (`finite_of_read?`).
-/
import ScriptTree.Json.Reader
import ScriptTree.Json.Writer
import ScriptTree.Proofs.NumeralText

namespace ScriptTree

/-! ## Strings -/

namespace Quoted

theorem hexValue?_hexDigit (n : Nat) : hexValue? (hexDigit n) = some (n % 16) := by
  have hdigit : ∀ m < 16, hexValue? (Nat.digitChar m) = some m := by decide
  exact hdigit _ (Nat.mod_lt _ (by decide))

/-- A control character is read back from its code. -/
theorem ofCode?_hexDigit {c : Char} (h : c.toNat < 0x20) (rest : List Char) :
    ofCode? ('0' :: '0' :: hexDigit (c.toNat / 16) :: hexDigit c.toNat :: rest) =
      some (c, rest) := by
  have hzero : hexValue? '0' = some 0 := by decide
  have hcode : c.toNat / 16 % 16 * 16 + c.toNat % 16 = c.toNat := by omega
  have htrail : isTrail c.toNat = false := by
    simp [isTrail]
    omega
  have hlead : isLead c.toNat = false := by
    simp [isLead]
    omega
  simp [ofCode?, hexQuad?, hzero, hexValue?_hexDigit, hcode, htrail, hlead]

/-- A character is read back from the way in which it is written. -/
theorem next?_escape (c : Char) (rest : List Char) :
    next? (escape c ++ rest) = some (c, rest) := by
  unfold escape
  split
  case h_8 hquote hbackslash _ _ _ _ _ =>
    have hplain : c ≠ '"' ∧ c ≠ '\\' := ⟨hquote, hbackslash⟩
    split
    · next h => exact ofCode?_hexDigit h rest
    · next h => simp [next?, hplain, h]
  all_goals rfl

theorem scanFrom?_next {before text rest : List Char} {c : Char}
    (h : next? text = some (c, rest)) : scanFrom? before text = scanFrom? (c :: before) rest := by
  have hquote : ∀ tail, text ≠ '"' :: tail := by
    rintro tail rfl
    simp [next?] at h
  rw [scanFrom?]
  · split
    · next hnone => cases hnone.symm.trans h
    · next hsome =>
      cases hsome.symm.trans h
      rfl
  · exact hquote

theorem scanFrom?_escape (s before rest : List Char) :
    scanFrom? before (s.flatMap escape ++ '"' :: rest) =
      some (String.ofList (before.reverse ++ s), rest) := by
  induction s generalizing before with
  | nil => simp [scanFrom?]
  | cons c s ih =>
    rw [List.flatMap_cons, List.append_assoc, scanFrom?_next (next?_escape c _), ih]
    simp

/-- A string is read back from its quoted form. -/
theorem scan?_write (s : String) (rest : List Char) :
    scan? (s.toList.flatMap escape ++ '"' :: rest) = some (s, rest) := by
  rw [scan?, scanFrom?_escape]
  simp

end Quoted

/-! ## Tokens -/

namespace Token

variable {c : Char} {text rest : List Char} {token : Token} {x : Double}

theorem not_isBlank_of_next? (h : next? (c :: rest) = some (token, text)) :
    isBlank c = false := by
  rw [Bool.eq_false_iff]
  intro hblank
  simp only [isBlank, Bool.or_eq_true, decide_eq_true_eq] at hblank
  obtain ((rfl | rfl) | rfl) | rfl := hblank <;> cases h

theorem scanFrom?_next {before : List Token} (h : next? text = some (token, rest)) :
    scanFrom? before text = scanFrom? (token :: before) rest := by
  cases text with
  | nil => cases h
  | cons c tail =>
    have hblank := not_isBlank_of_next? h
    rw [scanFrom?, if_neg (by simp [hblank])]
    split
    · next hnone => cases hnone.symm.trans h
    · next hsome =>
      cases hsome.symm.trans h
      rfl

theorem next?_mark (h : mark? c = some token) : next? (c :: rest) = some (token, rest) := by
  simp [next?, h]

theorem next?_string (s : String) : next? (Quoted.write s rest) = some (.string s, rest) := by
  have hmark : mark? '"' = none := rfl
  simp [Quoted.write, next?, hmark, Quoted.scan?_write]

/-- A digit comes before every letter. -/
theorem isAlpha_of_isDigit (h : c.isDigit = true) : c.isAlpha = false := by
  have hbefore : ∀ first : UInt32, 57 < first.toNat → ¬ first ≤ c.val := by
    intro first hfirst hle
    exact Nat.not_lt.2 (UInt32.le_iff_toNat_le.1 hle)
      (Nat.lt_of_le_of_lt (Char.isDigit_iff_toNat.1 h).2 hfirst)
  show (decide ('A'.val ≤ c.val ∧ _) || (decide ('a'.val ≤ c.val) && _)) = false
  simp only [hbefore 'A'.val (by decide), hbefore 'a'.val (by decide), false_and, decide_false,
    Bool.false_and, Bool.or_false]

/-- The first character of a number starts no other token. -/
theorem next?_of_scan? {found : Double × List Char}
    (h : Numeral.scan? (c :: rest) = some found) :
    next? (c :: rest) = some (.number found.1, found.2) := by
  have hfirst : mark? c = none ∧ c ≠ '"' ∧ c.isAlpha = false := by
    rcases Numeral.isDigit_of_scan? h with rfl | hdigit
    · decide
    · refine ⟨?_, ?_, isAlpha_of_isDigit hdigit⟩
      · unfold mark?
        split <;> first | rfl | exact absurd hdigit (by decide)
      · rintro rfl
        exact absurd hdigit (by decide)
  simp [next?, hfirst, h]

/-- A finite number is read back from its text. -/
theorem next?_number (hfinite : x.isFinite = true) (h : Numeral.Ends rest) :
    next? (Numeral.write x rest) = some (.number x, rest) := by
  have hscan := Numeral.scan?_text hfinite h
  rw [Numeral.write, if_pos hfinite]
  cases htext : x.text Numeral.style ++ rest with
  | nil =>
    rw [htext] at hscan
    cases hscan
  | cons c tail =>
    rw [htext] at hscan
    exact next?_of_scan? hscan

end Token

/-! ## Documents -/

namespace Document

/-- No number of a document is infinite or NaN. -/
inductive Finite : Document → Prop
  | null : Finite .null
  | bool {b} : Finite (.bool b)
  | number {x} : x.isFinite = true → Finite (.number x)
  | string {s} : Finite (.string s)
  | array {elements} : (∀ e ∈ elements, Finite e) → Finite (.array elements)
  | object {members} : (∀ m ∈ members, Finite m.2) → Finite (.object members)

mutual

/-- The tokens of a document as it is written. -/
def tokens : Document → List Token
  | .null => [.null]
  | .bool b => [.bool b]
  | .number x => [.number x]
  | .string s => [.string s]
  | .array elements => .beginArray :: (elementTokens elements ++ [.endArray])
  | .object members => .beginObject :: (memberTokens members ++ [.endObject])

/-- The tokens of elements, with commas between them. -/
def elementTokens : List Document → List Token
  | [] => []
  | [element] => element.tokens
  | element :: elements => element.tokens ++ .comma :: elementTokens elements

/-- The tokens of members, with commas between them. -/
def memberTokens : List (String × Document) → List Token
  | [] => []
  | [(name, value)] => .string name :: .colon :: value.tokens
  | (name, value) :: members =>
    .string name :: .colon :: (value.tokens ++ .comma :: memberTokens members)

end

/-! ### From the text to the tokens -/

section
open Token

theorem ends_of_mark? {c : Char} {token : Token} {rest : List Char} (h : mark? c = some token) :
    Numeral.Ends (c :: rest) := by
  intro first hfirst
  cases hfirst
  unfold mark? at h
  split at h
  case h_7 => cases h
  all_goals decide

mutual

/-- The tokens of a document are those of its text. -/
theorem scanFrom?_write {before : List Token} {rest : List Char} (hrest : Numeral.Ends rest) :
    ∀ (d : Document), d.Finite →
      scanFrom? before (d.write rest) = scanFrom? (d.tokens.reverse ++ before) rest
  | .null, _ => scanFrom?_next rfl
  | .bool true, _ => scanFrom?_next rfl
  | .bool false, _ => scanFrom?_next rfl
  | .number _, .number hfinite => scanFrom?_next (next?_number hfinite hrest)
  | .string s, _ => scanFrom?_next (next?_string s)
  | .array elements, .array h => by
    rw [write, scanFrom?_next (next?_mark rfl), scanFrom?_writeElements (ends_of_mark? rfl) _ h,
      scanFrom?_next (next?_mark rfl)]
    simp [tokens]
  | .object members, .object h => by
    rw [write, scanFrom?_next (next?_mark rfl), scanFrom?_writeMembers (ends_of_mark? rfl) _ h,
      scanFrom?_next (next?_mark rfl)]
    simp [tokens]

theorem scanFrom?_writeElements {before : List Token} {rest : List Char}
    (hrest : Numeral.Ends rest) :
    ∀ (elements : List Document), (∀ e ∈ elements, e.Finite) →
      scanFrom? before (writeElements elements rest) =
        scanFrom? ((elementTokens elements).reverse ++ before) rest
  | [], _ => rfl
  | [element], h => scanFrom?_write hrest element (h element List.mem_cons_self)
  | element :: next :: elements, h => by
    have hnext := fun e he => h e (List.mem_cons_of_mem _ he)
    rw [writeElements, scanFrom?_write (ends_of_mark? rfl) element (h element List.mem_cons_self),
      scanFrom?_next (next?_mark rfl), scanFrom?_writeElements hrest (next :: elements) hnext]
    · simp [elementTokens]
    · exact List.cons_ne_nil _ _

theorem scanFrom?_writeMembers {before : List Token} {rest : List Char}
    (hrest : Numeral.Ends rest) :
    ∀ (members : List (String × Document)), (∀ m ∈ members, m.2.Finite) →
      scanFrom? before (writeMembers members rest) =
        scanFrom? ((memberTokens members).reverse ++ before) rest
  | [], _ => rfl
  | [(name, value)], h => by
    have hvalue : value.Finite := h _ List.mem_cons_self
    rw [writeMembers, scanFrom?_next (next?_string name), scanFrom?_next (next?_mark rfl),
      scanFrom?_write hrest value hvalue]
    simp [memberTokens]
  | (name, value) :: next :: members, h => by
    have hvalue : value.Finite := h _ List.mem_cons_self
    have hnext := fun m hm => h m (List.mem_cons_of_mem _ hm)
    rw [writeMembers, scanFrom?_next (next?_string name), scanFrom?_next (next?_mark rfl),
      scanFrom?_write (ends_of_mark? rfl) value hvalue, scanFrom?_next (next?_mark rfl),
      scanFrom?_writeMembers hrest (next :: members) hnext]
    · simp [memberTokens]
    · exact List.cons_ne_nil _ _

end

end

end Document

/-! ### From the tokens to the document -/

namespace Reading

/-- Where a list of tokens leads. -/
def steps? (r : Reading) (tokens : List Token) : Option Reading := tokens.foldlM step? r

@[simp] theorem steps?_nil (r : Reading) : r.steps? [] = some r := rfl

@[simp] theorem steps?_cons (r : Reading) (token : Token) (tokens : List Token) :
    r.steps? (token :: tokens) = (r.step? token).bind (·.steps? tokens) := rfl

end Reading

namespace Document

open Reading

/-- An element may be the first one, since it does not start with the end of the list. -/
theorem steps?_first (element : Document) (elements : List Document) (frames : List Frame)
    (rest : List Token) :
    (beforeFirstElement frames).steps? (elementTokens (element :: elements) ++ rest) =
      (beforeValue (.array [] :: frames)).steps?
        (elementTokens (element :: elements) ++ rest) := by
  cases elements <;> cases element <;> simp [elementTokens, tokens, step?]

/-- A name may be the first one. -/
theorem steps?_firstName (member : String × Document) (members : List (String × Document))
    (frames : List Frame) (rest : List Token) :
    (beforeFirstName frames).steps? (memberTokens (member :: members) ++ rest) =
      (beforeName [] frames).steps? (memberTokens (member :: members) ++ rest) := by
  cases members <;> rfl

mutual

/-- The tokens of a document spell it. -/
theorem steps?_tokens (frames : List Frame) (rest : List Token) :
    ∀ (d : Document), (beforeValue frames).steps? (d.tokens ++ rest) =
      (afterValue d frames).steps? rest
  | .null | .bool _ | .number _ | .string _ => rfl
  | .array elements => by
    cases helements : elements with
    | nil => rfl
    | cons element others =>
      have hrest := steps?_elementTokens [] frames rest elements (by simp [helements])
      rw [helements] at hrest
      simp [tokens, step?, beginValue?, steps?_first, hrest]
  | .object members => by
    cases hmembers : members with
    | nil => rfl
    | cons member others =>
      have hrest := steps?_memberTokens [] frames rest members (by simp [hmembers])
      rw [hmembers] at hrest
      simp [tokens, step?, beginValue?, steps?_firstName, hrest]

theorem steps?_elementTokens (before : List Document) (frames : List Frame)
    (rest : List Token) :
    ∀ (elements : List Document), elements ≠ [] →
      (beforeValue (.array before :: frames)).steps?
          (elementTokens elements ++ .endArray :: rest) =
        (afterValue (.array (before.reverse ++ elements)) frames).steps? rest
  | [], hne => absurd rfl hne
  | [element], _ => by
    rw [elementTokens, steps?_tokens _ _ element]
    simp [step?, endValue?]
  | element :: next :: elements, _ => by
    have hnext := steps?_elementTokens (element :: before) frames rest (next :: elements)
      (List.cons_ne_nil _ _)
    rw [elementTokens, List.append_assoc, steps?_tokens _ _ element]
    · simp [step?, endValue?, hnext]
    · exact List.cons_ne_nil _ _

theorem steps?_memberTokens (before : List (String × Document)) (frames : List Frame)
    (rest : List Token) :
    ∀ (members : List (String × Document)), members ≠ [] →
      (beforeName before frames).steps? (memberTokens members ++ .endObject :: rest) =
        (afterValue (.object (before.reverse ++ members)) frames).steps? rest
  | [], hne => absurd rfl hne
  | [(name, value)], _ => by
    have hvalue := steps?_tokens (.object before name :: frames) (.endObject :: rest) value
    simp [memberTokens, step?, endValue?, hvalue]
  | (name, value) :: next :: members, _ => by
    have hvalue := fun rest => steps?_tokens (.object before name :: frames) rest value
    have hnext := steps?_memberTokens ((name, value) :: before) frames rest (next :: members)
      (List.cons_ne_nil _ _)
    simp [memberTokens, step?, endValue?, hvalue, hnext]

end

theorem ofTokens?_tokens (d : Document) : ofTokens? d.tokens = some d := by
  have hsteps := steps?_tokens [] [] d
  rw [List.append_nil, steps?_nil, steps?] at hsteps
  rw [ofTokens?, hsteps]
  rfl

/-- A document whose numbers are finite is read back from its text. -/
theorem read?_render {d : Document} (h : d.Finite) : read? d.render = some d := by
  have hscan : Token.scan? (d.write []) = some d.tokens := by
    rw [Token.scan?, scanFrom?_write Numeral.ends_nil d h, List.append_nil,
      Token.scanFrom?, List.reverse_reverse]
  rw [read?, render, String.toList_ofList, hscan]
  exact ofTokens?_tokens d

end Document

/-! ## What is read is finite -/

/-- A token is no infinite number and no NaN. -/
def Token.Finite : Token → Prop
  | .number x => x.isFinite = true
  | _ => True

/-- No number that has been read of an array or object is infinite or NaN. -/
def Frame.Finite : Frame → Prop
  | .array before => ∀ d ∈ before, d.Finite
  | .object before _ => ∀ m ∈ before, m.2.Finite

/-- No number that has been read is infinite or NaN. -/
def Reading.Finite : Reading → Prop
  | .beforeValue frames | .beforeFirstElement frames | .beforeFirstName frames =>
    ∀ f ∈ frames, f.Finite
  | .beforeName before frames | .beforeColon before _ frames =>
    (∀ m ∈ before, m.2.Finite) ∧ ∀ f ∈ frames, f.Finite
  | .afterValue value frames => value.Finite ∧ ∀ f ∈ frames, f.Finite

namespace Token

variable {text rest : List Char} {token : Token}

theorem finite_of_mark? {c : Char} (h : mark? c = some token) : token.Finite := by
  unfold mark? at h
  split at h <;> cases h <;> trivial

theorem finite_of_word? (h : word? text = some (token, rest)) : token.Finite := by
  unfold word? at h
  split at h <;> cases h <;> trivial

theorem finite_of_next? (h : next? text = some (token, rest)) : token.Finite := by
  unfold next? at h
  split at h
  · cases h
  split at h
  · next hmark =>
    cases h
    exact finite_of_mark? hmark
  split at h
  · obtain ⟨_, _, hstring⟩ := Option.map_eq_some_iff.1 h
    cases hstring
    trivial
  split at h
  · exact finite_of_word? h
  · obtain ⟨⟨x, after⟩, hscan, hnumber⟩ := Option.map_eq_some_iff.1 h
    cases hnumber
    exact Numeral.isFinite_of_scan? hscan

theorem finite_of_scanFrom? {before tokens : List Token} (hbefore : ∀ t ∈ before, t.Finite)
    (h : scanFrom? before text = some tokens) : ∀ t ∈ tokens, t.Finite := by
  fun_induction scanFrom? before text with
  | case1 =>
    cases h
    simpa using hbefore
  | case2 _ _ _ _ ih => exact ih hbefore h
  | case3 => cases h
  | case4 before c rest _ token after hnext ih =>
    exact ih (List.forall_mem_cons.2 ⟨finite_of_next? hnext, hbefore⟩) h

end Token

namespace Reading

variable {r r' : Reading} {token : Token} {frames : List Frame}

theorem finite_of_beginValue? (htoken : token.Finite) (hframes : ∀ f ∈ frames, f.Finite)
    (h : beginValue? frames token = some r) : r.Finite := by
  cases token with
  | null => cases h; exact ⟨.null, hframes⟩
  | bool => cases h; exact ⟨.bool, hframes⟩
  | number => cases h; exact ⟨.number htoken, hframes⟩
  | string => cases h; exact ⟨.string, hframes⟩
  | beginArray | beginObject => cases h; exact hframes
  | _ => cases h

theorem finite_of_endValue? {value : Document} (hvalue : value.Finite)
    (hframes : ∀ f ∈ frames, f.Finite) (h : endValue? value frames token = some r) :
    r.Finite := by
  unfold endValue? at h
  split at h
  case h_5 => cases h
  all_goals
    cases h
    obtain ⟨hframe, hframes⟩ := List.forall_mem_cons.1 hframes
  · exact List.forall_mem_cons.2 ⟨List.forall_mem_cons.2 ⟨hvalue, hframe⟩, hframes⟩
  · refine ⟨.array ?_, hframes⟩
    simp only [List.mem_reverse]
    exact List.forall_mem_cons.2 ⟨hvalue, hframe⟩
  · refine ⟨?_, hframes⟩
    exact List.forall_mem_cons.2 ⟨hvalue, hframe⟩
  · refine ⟨.object ?_, hframes⟩
    simp only [List.mem_reverse]
    exact List.forall_mem_cons.2 ⟨hvalue, hframe⟩

/-- One token keeps what has been read finite. -/
theorem finite_of_step? (htoken : token.Finite) (hr : r.Finite) (h : r.step? token = some r') :
    r'.Finite := by
  have hframe : (Frame.array []).Finite := List.forall_mem_nil _
  unfold step? at h
  split at h
  · exact finite_of_beginValue? htoken hr h
  · cases h
    exact ⟨.array (List.forall_mem_nil _), hr⟩
  · exact finite_of_beginValue? htoken (List.forall_mem_cons.2 ⟨hframe, hr⟩) h
  · cases h
    exact ⟨.object (List.forall_mem_nil _), hr⟩
  · cases h
    exact ⟨List.forall_mem_nil _, hr⟩
  · cases h
    exact hr
  · cases h
    exact List.forall_mem_cons.2 hr
  · exact finite_of_endValue? hr.1 hr.2 h
  · cases h

theorem finite_of_steps? {tokens : List Token} (htokens : ∀ t ∈ tokens, t.Finite)
    (hr : r.Finite) (h : r.steps? tokens = some r') : r'.Finite := by
  induction tokens generalizing r with
  | nil =>
    cases h
    exact hr
  | cons token tokens ih =>
    obtain ⟨next, hnext, h⟩ := Option.bind_eq_some_iff.1 h
    obtain ⟨htoken, htokens⟩ := List.forall_mem_cons.1 htokens
    exact ih htokens (finite_of_step? htoken hr hnext) h

end Reading

/-- No number of a document that is read is infinite or NaN. -/
theorem Document.finite_of_read? {text : String} {d : Document} (h : read? text = some d) :
    d.Finite := by
  obtain ⟨tokens, htokens, h⟩ := Option.bind_eq_some_iff.1 h
  obtain ⟨last, hlast, h⟩ := Option.bind_eq_some_iff.1 h
  have hfinite := Token.finite_of_scanFrom? (List.forall_mem_nil _) htokens
  have hstart : (Reading.beforeValue []).Finite := List.forall_mem_nil _
  have hread := Reading.finite_of_steps? hfinite hstart hlast
  unfold Reading.finish? at h
  split at h
  · cases h
    exact hread.1
  · cases h

end ScriptTree
