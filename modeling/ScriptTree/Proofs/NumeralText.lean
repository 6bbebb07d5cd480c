/-
  The text of a number is read back.

  * `Numeral.Ends`: a text behind a number that does not go on with it.
  * `unsigned?_positional`, `unsigned?_scientific`: the two notations spell the decimal
    number that was written, or the same number in tenths.
  * `scan?_text`: a finite number is read back from its text.
-/
import Mathlib.Data.List.Basic
import ScriptTree.Json.Numeral
import ScriptTree.Proofs.Rounding

namespace ScriptTree

namespace Numeral

variable {ds rest : List Char} {d : Decimal} {x : Double}

/-- A text does not go on with a number. -/
def Ends (text : List Char) : Prop :=
  ∀ c ∈ text.head?, c.isDigit = false ∧ c ≠ 'e' ∧ c ≠ 'E'

theorem ends_nil : Ends [] := by simp [Ends]

/-! ## Digits -/

/-- Digits up to a character that is none. -/
theorem digits_of_isDigit (hds : ∀ c ∈ ds, c.isDigit = true)
    (hrest : ∀ c ∈ rest.head?, c.isDigit = false) : digits (ds ++ rest) = (ds, rest) := by
  have htake : rest.takeWhile Char.isDigit = [] ∧ rest.dropWhile Char.isDigit = rest := by
    cases rest with
    | nil => exact ⟨rfl, rfl⟩
    | cons c rest => simp [hrest c rfl]
  rw [digits, List.takeWhile_append_of_pos hds, List.dropWhile_append_of_pos hds, htake.1,
    htake.2, List.append_nil]

theorem head?_toDigits {n : Nat} (h : 0 < n) : (Nat.toDigits 10 n).head? ≠ some '0' := by
  have hdigit : ∀ n < 10, 0 < n → Nat.digitChar n ≠ '0' := by decide
  induction n using Nat.strongRecOn with
  | ind n ih =>
    rcases Nat.lt_or_ge n 10 with hlt | hge
    · simpa [Nat.toDigits_of_lt_base hlt] using hdigit n hlt h
    · rw [Nat.toDigits_of_base_le (by decide) hge,
        List.head?_append_of_ne_nil _ Nat.toDigits_ne_nil]
      exact ih _ (by omega) (by omega)

/-! ## The parts of a number -/

section
variable (hds : ∀ c ∈ ds, c.isDigit = true) (hne : ds ≠ [])
  (hrest : ∀ c ∈ rest.head?, c.isDigit = false)
include hds hne hrest

theorem whole?_of_isDigit (hzero : ds.head? = some '0' → ds = ['0']) :
    whole? (ds ++ rest) = some (ds, rest) := by
  rw [whole?, digits_of_isDigit hds hrest]
  split
  · next h => exact absurd (congrArg Prod.fst h) hne
  · next h =>
    cases h
    cases hzero rfl
  · next h => rw [h]

theorem fraction?_of_isDigit : fraction? ('.' :: (ds ++ rest)) = some (ds, rest) := by
  rw [fraction?, digits_of_isDigit hds hrest]
  split
  · next h => exact absurd (congrArg Prod.fst h) hne
  · next h => rw [h]

theorem magnitude?_of_isDigit (negative : Bool) :
    magnitude? negative (ds ++ rest) =
      some (if negative then -(Nat.ofDigitChars 10 ds 0 : Int) else Nat.ofDigitChars 10 ds 0,
        rest) := by
  rw [magnitude?, digits_of_isDigit hds hrest]
  split
  · next h => exact absurd (congrArg Prod.fst h) hne
  · next h =>
    cases h
    rfl

end

theorem fraction?_of_ne (h : rest.head? ≠ some '.') : fraction? rest = some ([], rest) := by
  unfold fraction?
  split
  · exact absurd rfl h
  · rfl

theorem exponent?_of_ends (h : Ends rest) : exponent? rest = some (0, rest) := by
  unfold exponent?
  split
  · next c rest =>
    have hc := h c rfl
    rw [if_neg (not_or.2 hc.2)]
  · rfl

/-- An exponent as it is written, with its sign. -/
theorem exponent?_toDigits (n : Int) (h : Ends rest) :
    exponent? ('e' :: (if n < 0 then '-' else '+') :: (Nat.toDigits 10 n.natAbs ++ rest)) =
      some (n, rest) := by
  have hmagnitude : ∀ negative,
      magnitude? negative (Nat.toDigits 10 n.natAbs ++ rest) =
        some (if negative then -(n.natAbs : Int) else n.natAbs, rest) := by
    intro negative
    rw [magnitude?_of_isDigit (fun c => Nat.isDigit_of_mem_toDigits (by decide) (by decide))
      Nat.toDigits_ne_nil fun c hc => (h c hc).1, Nat.ofDigitChars_ten_toDigits]
  by_cases hn : n < 0
  · have : exponent? ('e' :: '-' :: (Nat.toDigits 10 n.natAbs ++ rest)) =
      magnitude? true (Nat.toDigits 10 n.natAbs ++ rest) := rfl
    rw [if_pos hn, this, hmagnitude, if_pos rfl, Int.ofNat_natAbs_of_nonpos (Int.le_of_lt hn),
      Int.neg_neg]
  · have : exponent? ('e' :: '+' :: (Nat.toDigits 10 n.natAbs ++ rest)) =
      magnitude? false (Nat.toDigits 10 n.natAbs ++ rest) := rfl
    rw [if_neg hn, this, hmagnitude, if_neg Bool.false_ne_true,
      Int.natAbs_of_nonneg (Int.not_lt.1 hn)]

section
variable {whole fraction after : List Char} {exponent : Int}
  (hwhole : ∀ c ∈ whole, c.isDigit = true) (hwhole' : whole ≠ [])
  (hhead : whole.head? = some '0' → whole = ['0'])
  (hafter : ∀ c ∈ after.head?, c.isDigit = false)
  (hexponent : exponent? after = some (exponent, rest))
include hwhole hwhole' hhead hafter hexponent

/-- Digits without a point, and what an exponent may be read from. -/
theorem unsigned?_plain (hpoint : after.head? ≠ some '.') :
    unsigned? (whole ++ after) = some (⟨Nat.ofDigitChars 10 whole 0, exponent⟩, rest) := by
  simp [unsigned?, whole?_of_isDigit hwhole hwhole' hafter hhead, fraction?_of_ne hpoint,
    hexponent]

/-- Digits with a point between them, and what an exponent may be read from. -/
theorem unsigned?_point (hfraction : ∀ c ∈ fraction, c.isDigit = true)
    (hfraction' : fraction ≠ []) :
    unsigned? (whole ++ '.' :: (fraction ++ after)) =
      some (⟨Nat.ofDigitChars 10 (whole ++ fraction) 0, exponent - fraction.length⟩, rest) := by
  have hpoint : ∀ c ∈ ('.' :: (fraction ++ after)).head?, c.isDigit = false := by
    intro c hc
    cases hc
    rfl
  simp [unsigned?, whole?_of_isDigit hwhole hwhole' hpoint hhead,
    fraction?_of_isDigit hfraction hfraction' hafter, hexponent]

end

/-! ## The notations -/

theorem isDigit_zeros {n : Nat} {c : Char} (h : c ∈ List.replicate n '0') : c.isDigit = true := by
  rw [(List.mem_replicate.1 h).2]
  rfl

theorem isDigit_toDigits {n : Nat} {c : Char} (h : c ∈ Nat.toDigits 10 n) : c.isDigit = true :=
  Nat.isDigit_of_mem_toDigits (by decide) (by decide) h

theorem toDigits_eq_of_head? {n : Nat} (h : (Nat.toDigits 10 n).head? = some '0') : n = 0 := by
  by_contra hn
  exact head?_toDigits (Nat.pos_of_ne_zero hn) h

/-- A whole number ends in a point and a zero, which spells it in tenths. -/
theorem unsigned?_positional_whole (hzero : d.digits = 0 → d.exponent = 0)
    (hexponent : 0 ≤ d.exponent) (h : Ends rest) :
    unsigned? (d.positional true ++ rest) =
      some (⟨d.digits * Nat.pow 10 (d.exponent.toNat + 1), -1⟩, rest) := by
  let whole := Nat.toDigits 10 d.digits ++ List.replicate d.exponent.toNat '0'
  have htext : d.positional true ++ rest = whole ++ '.' :: (['0'] ++ rest) := by
    simp [Decimal.positional, hexponent, whole]
  have hwhole : ∀ c ∈ whole, c.isDigit = true := by
    intro c hc
    rcases List.mem_append.1 hc with hc | hc
    · exact isDigit_toDigits hc
    · exact isDigit_zeros hc
  have hhead : whole.head? = some '0' → whole = ['0'] := by
    intro hstart
    rw [List.head?_append_of_ne_nil _ Nat.toDigits_ne_nil] at hstart
    have hdigits := toDigits_eq_of_head? hstart
    simp [whole, hdigits, hzero hdigits]
  have hzeros : whole ++ ['0'] =
      Nat.toDigits 10 d.digits ++ List.replicate (d.exponent.toNat + 1) '0' := by
    rw [List.replicate_succ', ← List.append_assoc]
  rw [htext, unsigned?_point hwhole (List.append_ne_nil_of_left_ne_nil Nat.toDigits_ne_nil _)
    hhead (fun c hc => (h c hc).1) (exponent?_of_ends h) (by simp) (by simp), hzeros,
    Nat.ofDigitChars_append, Nat.ofDigitChars_ten_toDigits, Nat.ofDigitChars_replicate_zero,
    Nat.mul_comm]
  rfl

/-- Digits with a point between them spell a number that has as many places. -/
theorem unsigned?_places {whole fraction : List Char} (hwhole : ∀ c ∈ whole, c.isDigit = true)
    (hwhole' : whole ≠ []) (hhead : whole.head? = some '0' → whole = ['0'])
    (hfraction : ∀ c ∈ fraction, c.isDigit = true)
    (hvalue : Nat.ofDigitChars 10 (whole ++ fraction) 0 = d.digits)
    (hplaces : fraction.length = (-d.exponent).toNat) (hexponent : d.exponent < 0)
    (h : Ends rest) :
    unsigned? (whole ++ '.' :: (fraction ++ rest)) = some (d, rest) := by
  have hfraction' : fraction ≠ [] := by
    rw [← List.length_pos_iff]
    omega
  have hself : (0 : Int) - fraction.length = d.exponent := by omega
  rw [unsigned?_point hwhole hwhole' hhead (fun c hc => (h c hc).1) (exponent?_of_ends h)
    hfraction hfraction', hvalue, hself]

/-- A number with places behind the point is spelled as it is. -/
theorem unsigned?_positional (hexponent : d.exponent < 0) (h : Ends rest) :
    unsigned? (d.positional true ++ rest) = some (d, rest) := by
  have hplaces : (-d.exponent).toNat ≠ 0 := by omega
  simp only [Decimal.positional, if_neg hplaces]
  split
  · next hlt =>
    let before := (Nat.toDigits 10 d.digits).length - (-d.exponent).toNat
    have hsplit := List.take_append_drop before (Nat.toDigits 10 d.digits)
    have hbefore : before ≠ 0 := by omega
    rw [List.append_assoc, List.cons_append]
    refine unsigned?_places (fun c hc => isDigit_toDigits (List.mem_of_mem_take hc)) ?_ ?_
      (fun c hc => isDigit_toDigits (List.mem_of_mem_drop hc)) ?_ ?_ hexponent h
    · rw [Ne, List.take_eq_nil_iff]
      exact not_or.2 ⟨hbefore, Nat.toDigits_ne_nil⟩
    · intro hhead
      rw [List.head?_take, if_neg hbefore] at hhead
      rw [toDigits_eq_of_head? hhead, Nat.toDigits_zero] at hlt
      exact absurd (Nat.lt_one_iff.1 hlt) hplaces
    · rw [hsplit, Nat.ofDigitChars_ten_toDigits]
    · rw [List.length_drop]
      omega
  · next hge =>
    show unsigned? (['0'] ++ '.' :: (_ ++ rest)) = _
    refine unsigned?_places (by simp) (by simp) (by simp) ?_ ?_ ?_ hexponent h
    · intro c hc
      rcases List.mem_append.1 hc with hc | hc
      · exact isDigit_zeros hc
      · exact isDigit_toDigits hc
    · rw [List.singleton_append, ← List.cons_append, ← List.replicate_succ,
        Nat.ofDigitChars_append, Nat.ofDigitChars_replicate_zero, Nat.mul_zero,
        Nat.ofDigitChars_ten_toDigits]
    · rw [List.length_append, List.length_replicate]
      omega

/-- A number with an exponent is spelled as it is. -/
theorem unsigned?_scientific (h : Ends rest) :
    unsigned? (d.scientific ++ rest) = some (d, rest) := by
  let after := 'e' :: (if d.leading < 0 then '-' else '+') ::
    (Nat.toDigits 10 d.leading.natAbs ++ rest)
  have hexponent : exponent? after = some (d.leading, rest) := exponent?_toDigits _ h
  have hafter : ∀ c ∈ after.head?, c.isDigit = false := by
    intro c hc
    cases hc
    rfl
  have hvalue := @Nat.ofDigitChars_ten_toDigits d.digits
  have hisDigit : ∀ c ∈ Nat.toDigits 10 d.digits, c.isDigit = true := fun _ => isDigit_toDigits
  cases hdigits : Nat.toDigits 10 d.digits with
  | nil => exact absurd hdigits Nat.toDigits_ne_nil
  | cons digit digits =>
    rw [hdigits] at hvalue hisDigit
    have hleading : d.leading = d.exponent + digits.length := by
      simp [Decimal.leading, hdigits]
    rw [List.forall_mem_cons] at hisDigit
    have hwhole : ∀ c ∈ [digit], c.isDigit = true := List.forall_mem_singleton.2 hisDigit.1
    have hhead : [digit].head? = some '0' → [digit] = ['0'] := by simp
    cases digits with
    | nil =>
      have htext : d.scientific ++ rest = [digit] ++ after := by
        simp [Decimal.scientific, hdigits, after]
      have hpoint : after.head? ≠ some '.' := by simp [after]
      have hself : d.leading = d.exponent := by simpa using hleading
      rw [htext, unsigned?_plain hwhole (List.cons_ne_nil _ _) hhead hafter hexponent hpoint,
        hvalue, hself]
    | cons next digits =>
      have htext : d.scientific ++ rest = [digit] ++ '.' :: (next :: digits ++ after) := by
        simp [Decimal.scientific, hdigits, after]
      have hself : d.leading - (next :: digits).length = d.exponent := by omega
      rw [htext, unsigned?_point hwhole (List.cons_ne_nil _ _) hhead hafter hexponent hisDigit.2
        (List.cons_ne_nil _ _), List.singleton_append, hvalue, hself]

/-- The text of a decimal number spells one that rounds the same. -/
theorem exists_unsigned?_text (hzero : d.digits = 0 → d.exponent = 0) (h : Ends rest)
    (negative : Bool) :
    ∃ found, unsigned? (d.text style ++ rest) = some (found, rest) ∧
      Double.ofDecimal? negative found = Double.ofDecimal? negative d := by
  unfold Decimal.text
  split
  · next hstyle =>
    by_cases hlt : d.exponent < 0
    · exact ⟨_, unsigned?_positional hlt h, rfl⟩
    · have hge := Int.not_lt.1 hlt
      refine ⟨_, unsigned?_positional_whole hzero hge h, ?_⟩
      have hgreatest : d.leading ≤ 15 := hstyle.2
      have hzeros : d.exponent.toNat ≤ 308 := by
        rw [Decimal.leading] at hgreatest
        omega
      have hself : (⟨d.digits, d.exponent.toNat⟩ : Decimal) = d := by
        rw [Int.toNat_of_nonneg hge]
      rw [Double.ofDecimal?_tenths _ _ hzeros, hself]
  · exact ⟨_, unsigned?_scientific h, rfl⟩

/-! ## Signed numbers -/

theorem sign_of_unsigned? {text : List Char} {found : Decimal × List Char}
    (h : unsigned? text = some found) : sign text = (false, text) := by
  unfold sign
  split
  · cases h
  · rfl

/-- **A finite number is read back from its text.**  It is the only fact about the rounding of
    numbers that the round trip of documents needs. -/
theorem scan?_text (hfinite : x.isFinite = true) (h : Ends rest) :
    scan? (x.text style ++ rest) = some (x, rest) := by
  obtain ⟨found, hfound, hread⟩ :=
    exists_unsigned?_text (Double.exponent_shortest hfinite) h x.negative
  rw [Double.readsBack_shortest hfinite] at hread
  have hsign : sign (x.text style ++ rest) = (x.negative, x.shortest.text style ++ rest) := by
    rw [Double.text]
    cases x.negative with
    | true => rfl
    | false => exact sign_of_unsigned? hfound
  simp [scan?, hsign, hfound, hread]

/-- A number starts with a digit or a minus. -/
theorem isDigit_of_scan? {c : Char} {result : Double × List Char}
    (h : scan? (c :: rest) = some result) : c = '-' ∨ c.isDigit = true := by
  by_contra hc
  obtain ⟨hminus, hdigit⟩ := not_or.1 hc
  have hsign : sign (c :: rest) = (false, c :: rest) := by simp [sign, hminus]
  simp [scan?, hsign, unsigned?, whole?, digits, hdigit] at h

end Numeral

end ScriptTree
