/-
  JSON numbers: how a document writes a number, and how the text of one is read.

  * `Numeral.style`, `Numeral.write`: every number is written as a fraction, from the
    shortest digits; what is no finite number is written as `null`.
  * `Numeral.scan?`: the number at the start of a text and the text after it.  A number
    is a whole part without needless zeros, an optional fraction and an optional
    exponent, none of them empty; it is rounded to the nearest double, which must not be
    infinity (`isFinite_of_scan?`).
-/
import ScriptTree.Double.Text

namespace ScriptTree

namespace Numeral

/-! ## Writing -/

/-- From `0.00001` up to sixteen places before the point a number is written without an
    exponent, and a whole number then ends in `.0`. -/
def style : NumberStyle where
  least := -5
  greatest := 15
  pointZero := true

/-- A number, and the text after it. -/
def write (x : Double) (rest : List Char) : List Char :=
  if x.isFinite then x.text style ++ rest else 'n' :: 'u' :: 'l' :: 'l' :: rest

/-! ## Reading -/

/-- The digits at the start of a text, and the text after them. -/
def digits (text : List Char) : List Char × List Char :=
  (text.takeWhile Char.isDigit, text.dropWhile Char.isDigit)

/-- A whole part: digits of which the first is zero only if it is alone. -/
def whole? (text : List Char) : Option (List Char × List Char) :=
  match digits text with
  | ([], _) => none
  | ('0' :: _ :: _, _) => none
  | (whole, rest) => some (whole, rest)

/-- The digits of a fraction; none if the text does not start with a point. -/
def fraction? (text : List Char) : Option (List Char × List Char) :=
  match text with
  | '.' :: text =>
    match digits text with
    | ([], _) => none
    | (fraction, rest) => some (fraction, rest)
  | text => some ([], text)

/-- The digits of an exponent behind its sign. -/
def magnitude? (negative : Bool) (text : List Char) : Option (Int × List Char) :=
  match digits text with
  | ([], _) => none
  | (exponent, rest) =>
    let n : Int := Nat.ofDigitChars 10 exponent 0
    some (if negative then -n else n, rest)

/-- An exponent; zero if the text does not start with the letter `e` of either case. -/
def exponent? (text : List Char) : Option (Int × List Char) :=
  match text with
  | c :: rest =>
    if c = 'e' ∨ c = 'E' then
      match rest with
      | '-' :: rest => magnitude? true rest
      | '+' :: rest => magnitude? false rest
      | rest => magnitude? false rest
    else some (0, text)
  | [] => some (0, [])

/-- A number without its sign. -/
def unsigned? (text : List Char) : Option (Decimal × List Char) := do
  let (whole, rest) ← whole? text
  let (fraction, rest) ← fraction? rest
  let (exponent, rest) ← exponent? rest
  some (⟨Nat.ofDigitChars 10 (whole ++ fraction) 0, exponent - fraction.length⟩, rest)

/-- The sign of a number, and the text after it. -/
def sign : List Char → Bool × List Char
  | '-' :: rest => (true, rest)
  | text => (false, text)

/-- The number at the start of a text, and the text after it.  It is the number nearest to what
    the text spells.  A reader that rounds in haste may miss it by a unit in the last place:
    of such a reader it is an assumption, and no theorem, that the text of a number is read
    back as the number (`scan?_text`). -/
def scan? (text : List Char) : Option (Double × List Char) := do
  let (decimal, rest) ← unsigned? (sign text).2
  let x ← Double.ofDecimal? (sign text).1 decimal
  some (x, rest)

theorem isFinite_of_scan? {text rest : List Char} {x : Double}
    (h : scan? text = some (x, rest)) : x.isFinite = true := by
  simp only [scan?, Option.bind_eq_bind, Option.bind_eq_some_iff, Option.some.injEq,
    Prod.mk.injEq] at h
  obtain ⟨_, _, _, hx, rfl, _⟩ := h
  exact Double.isFinite_of_ofDecimal? hx

/-! ## What is left of the text -/

theorem digits_append (text : List Char) : (digits text).1 ++ (digits text).2 = text :=
  List.takeWhile_append_dropWhile

theorem digits_length (text : List Char) :
    (digits text).1.length + (digits text).2.length = text.length := by
  rw [← List.length_append, digits_append]

theorem whole?_shortens {text whole rest : List Char} (h : whole? text = some (whole, rest)) :
    rest.length < text.length := by
  have hlen := digits_length text
  unfold whole? at h
  split at h
  · cases h
  · cases h
  · next ds after hne _ heq =>
    simp only [Option.some.injEq, Prod.mk.injEq] at h
    obtain ⟨rfl, rfl⟩ := h
    rw [heq] at hlen
    have : 0 < ds.length := List.length_pos_iff.2 hne
    simp only at hlen
    omega

theorem fraction?_le {text fraction rest : List Char}
    (h : fraction? text = some (fraction, rest)) : rest.length ≤ text.length := by
  unfold fraction? at h
  split at h
  · next after =>
    have hlen := digits_length after
    split at h
    · cases h
    · next heq =>
      simp only [Option.some.injEq, Prod.mk.injEq] at h
      obtain ⟨rfl, rfl⟩ := h
      rw [heq] at hlen
      simp only [List.length_cons] at hlen ⊢
      omega
  · simp only [Option.some.injEq, Prod.mk.injEq] at h
    obtain ⟨-, rfl⟩ := h
    exact Nat.le_refl _

theorem magnitude?_le {negative : Bool} {text rest : List Char} {n : Int}
    (h : magnitude? negative text = some (n, rest)) : rest.length ≤ text.length := by
  have hlen := digits_length text
  unfold magnitude? at h
  split at h
  · cases h
  · next heq =>
    simp only [Option.some.injEq, Prod.mk.injEq] at h
    obtain ⟨-, rfl⟩ := h
    rw [heq] at hlen
    simp only at hlen
    omega

theorem exponent?_le {text rest : List Char} {n : Int}
    (h : exponent? text = some (n, rest)) : rest.length ≤ text.length := by
  unfold exponent? at h
  split at h
  · split at h
    · split at h
      · exact Nat.le_trans (magnitude?_le h) (by simp only [List.length_cons]; omega)
      · exact Nat.le_trans (magnitude?_le h) (by simp only [List.length_cons]; omega)
      · exact Nat.le_trans (magnitude?_le h) (by simp only [List.length_cons]; omega)
    · simp only [Option.some.injEq, Prod.mk.injEq] at h
      obtain ⟨-, rfl⟩ := h
      exact Nat.le_refl _
  · simp only [Option.some.injEq, Prod.mk.injEq] at h
    obtain ⟨-, rfl⟩ := h
    exact Nat.le_refl _

theorem sign_le (text : List Char) : (sign text).2.length ≤ text.length := by
  unfold sign
  split <;> simp

theorem scan?_shortens {text rest : List Char} {x : Double}
    (h : scan? text = some (x, rest)) : rest.length < text.length := by
  simp only [scan?, unsigned?, Option.bind_eq_bind, Option.bind_eq_some_iff, Option.some.injEq,
    Prod.mk.injEq, Prod.exists] at h
  obtain ⟨_, _, ⟨_, _, hwhole, _, _, hfraction, _, _, hexponent, rfl, rfl⟩, _, _, rfl,
    rfl⟩ := h
  have := sign_le text
  have := whole?_shortens hwhole
  have := fraction?_le hfraction
  have := exponent?_le hexponent
  omega

end Numeral

end ScriptTree
