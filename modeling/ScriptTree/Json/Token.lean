/-
  The tokens of a JSON text.

  * `Token.next?`: the token at the start of a text that does not start with a blank.
  * `Token.scan?`: all tokens of a text, blanks between them left out.
-/
import ScriptTree.Json.Numeral
import ScriptTree.Json.Quoted

namespace ScriptTree

/-- A token of JSON. -/
inductive Token where
  | beginArray
  | endArray
  | beginObject
  | endObject
  /-- The colon between a name and its value. -/
  | colon
  | comma
  | null
  | bool (value : Bool)
  | number (value : Double)
  | string (value : String)
  deriving DecidableEq, Repr

namespace Token

/-- The four characters that may stand between tokens. -/
def isBlank (c : Char) : Bool := c = ' ' || c = '\t' || c = '\n' || c = '\r'

/-- The tokens of a single character. -/
def mark? : Char → Option Token
  | '[' => some .beginArray
  | ']' => some .endArray
  | '\x7b' => some .beginObject
  | '\x7d' => some .endObject
  | ':' => some .colon
  | ',' => some .comma
  | _ => none

/-- The tokens that are words. -/
def word? : List Char → Option (Token × List Char)
  | 'n' :: 'u' :: 'l' :: 'l' :: rest => some (.null, rest)
  | 't' :: 'r' :: 'u' :: 'e' :: rest => some (.bool true, rest)
  | 'f' :: 'a' :: 'l' :: 's' :: 'e' :: rest => some (.bool false, rest)
  | _ => none

/-- The token at the start of a text, and the text after it. -/
def next? : List Char → Option (Token × List Char)
  | [] => none
  | c :: rest =>
    match mark? c with
    | some token => some (token, rest)
    | none =>
      if c = '"' then (Quoted.scan? rest).map fun (s, rest) => (.string s, rest)
      else if c.isAlpha then word? (c :: rest)
      else (Numeral.scan? (c :: rest)).map fun (x, rest) => (.number x, rest)

theorem word?_shortens {text rest : List Char} {token : Token}
    (h : word? text = some (token, rest)) : rest.length < text.length := by
  unfold word? at h
  split at h
  · cases h; simp only [List.length_cons]; omega
  · cases h; simp only [List.length_cons]; omega
  · cases h; simp only [List.length_cons]; omega
  · cases h

theorem next?_shortens {text rest : List Char} {token : Token}
    (h : next? text = some (token, rest)) : rest.length < text.length := by
  unfold next? at h
  split at h
  · cases h
  split at h
  · simp only [Option.some.injEq, Prod.mk.injEq] at h
    obtain ⟨-, rfl⟩ := h
    simp
  split at h
  · simp only [Option.map_eq_some_iff, Prod.mk.injEq, Prod.exists] at h
    obtain ⟨_, _, hscan, -, rfl⟩ := h
    have := Quoted.scanFrom?_shortens hscan
    simp only [List.length_cons]
    omega
  split at h
  · exact word?_shortens h
  · simp only [Option.map_eq_some_iff, Prod.mk.injEq, Prod.exists] at h
    obtain ⟨_, _, hscan, -, rfl⟩ := h
    exact Numeral.scan?_shortens hscan

/-- The tokens of a text behind those already read, the last of which comes first. -/
def scanFrom? (before : List Token) (text : List Char) : Option (List Token) :=
  match text with
  | [] => some before.reverse
  | c :: rest =>
    if isBlank c then scanFrom? before rest
    else
      match _h : next? (c :: rest) with
      | none => none
      | some (token, rest) => scanFrom? (token :: before) rest
  termination_by text.length
  decreasing_by
    · simp
    · exact next?_shortens ‹_›

/-- The tokens of a text. -/
def scan? (text : List Char) : Option (List Token) := scanFrom? [] text

end Token

end ScriptTree
