/-
  JSON strings: characters between quotes, some of them escaped.

  * `Quoted.escape`: the written form of a character.  A quote, a backslash and the
    control characters are escaped, and nothing else.
  * `Quoted.next?`: one character of a string, which may be escaped in any of the ways
    that JSON allows.  Half of a surrogate pair is none (`next?_shortens` says that
    the text left is shorter, so that a string can be read to its end).
  * `Quoted.scan?`: a string up to its closing quote.
-/

namespace ScriptTree

namespace Quoted

/-! ## Writing -/

/-- A hexadecimal digit, lower case. -/
def hexDigit (n : Nat) : Char := Nat.digitChar (n % 16)

/-- A character as it is written between quotes. -/
def escape (c : Char) : List Char :=
  match c with
  | '"' => ['\\', '"']
  | '\\' => ['\\', '\\']
  | '\x08' => ['\\', 'b']
  | '\x0c' => ['\\', 'f']
  | '\n' => ['\\', 'n']
  | '\r' => ['\\', 'r']
  | '\t' => ['\\', 't']
  | c => if c.toNat < 0x20 then
      ['\\', 'u', '0', '0', hexDigit (c.toNat / 16), hexDigit c.toNat]
    else [c]

/-- A string in quotes, and the text after it. -/
def write (s : String) (rest : List Char) : List Char :=
  '"' :: s.toList.flatMap escape ++ '"' :: rest

/-! ## Reading -/

/-- The value of a hexadecimal digit of either case. -/
def hexValue? (c : Char) : Option Nat :=
  if c.isDigit then some (c.toNat - '0'.toNat)
  else if 'a' ≤ c ∧ c ≤ 'f' then some (c.toNat - 'a'.toNat + 10)
  else if 'A' ≤ c ∧ c ≤ 'F' then some (c.toNat - 'A'.toNat + 10)
  else none

/-- Four hexadecimal digits: their value, and the text after them. -/
def hexQuad? : List Char → Option (Nat × List Char)
  | a :: b :: c :: d :: rest => do
    let a ← hexValue? a
    let b ← hexValue? b
    let c ← hexValue? c
    let d ← hexValue? d
    some (((a * 16 + b) * 16 + c) * 16 + d, rest)
  | _ => none

/-- The first half of a surrogate pair. -/
def isLead (unit : Nat) : Bool := 0xD800 ≤ unit && unit ≤ 0xDBFF

/-- The second half of a surrogate pair. -/
def isTrail (unit : Nat) : Bool := 0xDC00 ≤ unit && unit ≤ 0xDFFF

/-- The character of a surrogate pair. -/
def ofPair (lead trail : Nat) : Char :=
  Char.ofNat (0x10000 + (lead - 0xD800) * 0x400 + (trail - 0xDC00))

/-- A character given by its code: one group of four digits, or two groups that are the
    halves of a surrogate pair. -/
def ofCode? (text : List Char) : Option (Char × List Char) := do
  let (unit, rest) ← hexQuad? text
  if isTrail unit then none
  else if isLead unit then
    match rest with
    | '\\' :: 'u' :: rest => do
      let (trail, rest) ← hexQuad? rest
      if isTrail trail then some (ofPair unit trail, rest) else none
    | _ => none
  else some (Char.ofNat unit, rest)

/-- The character that a letter behind a backslash stands for. -/
def ofLetter? : Char → Option Char
  | '"' => some '"'
  | '\\' => some '\\'
  | '/' => some '/'
  | 'b' => some '\x08'
  | 'f' => some '\x0c'
  | 'n' => some '\n'
  | 'r' => some '\r'
  | 't' => some '\t'
  | _ => none

/-- The character that the text behind a backslash stands for, and the text after it. -/
def escaped? : List Char → Option (Char × List Char)
  | [] => none
  | letter :: rest =>
    if letter = 'u' then ofCode? rest else (ofLetter? letter).map (·, rest)

/-- The next character of a string, and the text after it. -/
def next? : List Char → Option (Char × List Char)
  | [] => none
  | c :: rest =>
    if c = '\\' then escaped? rest
    else if c = '"' ∨ c.toNat < 0x20 then none
    else some (c, rest)

theorem hexQuad?_shortens {text rest : List Char} {n : Nat}
    (h : hexQuad? text = some (n, rest)) : rest.length < text.length := by
  unfold hexQuad? at h
  split at h
  · simp only [Option.bind_eq_bind, Option.bind_eq_some_iff, Option.some.injEq,
      Prod.mk.injEq] at h
    obtain ⟨_, _, _, _, _, _, _, _, _, rfl⟩ := h
    simp only [List.length_cons]
    omega
  · cases h

theorem ofCode?_shortens {text rest : List Char} {c : Char}
    (h : ofCode? text = some (c, rest)) : rest.length < text.length := by
  unfold ofCode? at h
  simp only [Option.bind_eq_bind, Option.bind_eq_some_iff] at h
  obtain ⟨⟨unit, after⟩, hunit, h⟩ := h
  have hlt := hexQuad?_shortens hunit
  split at h
  · cases h
  split at h
  · split at h
    · next hafter =>
      simp only [Option.bind_eq_some_iff] at h
      obtain ⟨⟨trail, after⟩, htrail, h⟩ := h
      have hlt' := hexQuad?_shortens htrail
      split at h
      · simp only [Option.some.injEq, Prod.mk.injEq] at h
        obtain ⟨-, rfl⟩ := h
        have := congrArg List.length hafter
        simp only [List.length_cons] at this
        omega
      · cases h
    · cases h
  · simp only [Option.some.injEq, Prod.mk.injEq] at h
    obtain ⟨-, rfl⟩ := h
    exact hlt

theorem escaped?_shortens {text rest : List Char} {c : Char}
    (h : escaped? text = some (c, rest)) : rest.length < text.length := by
  unfold escaped? at h
  split at h
  · cases h
  split at h
  · have := ofCode?_shortens h
    simp only [List.length_cons]
    omega
  · simp only [Option.map_eq_some_iff, Prod.mk.injEq] at h
    obtain ⟨_, _, _, rfl⟩ := h
    simp

theorem next?_shortens {text rest : List Char} {c : Char}
    (h : next? text = some (c, rest)) : rest.length < text.length := by
  unfold next? at h
  split at h
  · cases h
  split at h
  · have := escaped?_shortens h
    simp only [List.length_cons]
    omega
  split at h
  · cases h
  · cases h
    simp

/-- The characters of a string up to its closing quote, behind those already read (the
    last one first), and the text after the quote. -/
def scanFrom? (before : List Char) (text : List Char) : Option (String × List Char) :=
  match text with
  | '"' :: rest => some (String.ofList before.reverse, rest)
  | text =>
    match _h : next? text with
    | none => none
    | some (c, rest) => scanFrom? (c :: before) rest
  termination_by text.length
  decreasing_by exact next?_shortens ‹_›

/-- A string whose opening quote has been read, and the text after its closing quote. -/
def scan? (text : List Char) : Option (String × List Char) := scanFrom? [] text

theorem scanFrom?_shortens {before text rest : List Char} {s : String}
    (h : scanFrom? before text = some (s, rest)) : rest.length < text.length := by
  fun_induction scanFrom? before text with
  | case1 before after =>
    cases h
    simp
  | case2 => cases h
  | case3 before text _ c after hnext ih =>
    exact Nat.lt_trans (ih h) (next?_shortens hnext)

end Quoted

end ScriptTree
