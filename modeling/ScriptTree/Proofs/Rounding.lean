/-
  The decimal numbers that read back as a floating-point number.

  * `nearestMagnitude_mul`: rounding depends on the quotient alone.
  * `nearestMagnitude_unitsOf`: the number nearest to a number is that number.
  * `readsBack_shortest`: the shortest digits of a finite number read back as it.
-/
import Mathlib.Order.Nat
import ScriptTree.Double.Shortest

namespace ScriptTree

theorem roundQuotient_mul_right (num den : Nat) {c : Nat} (hc : 0 < c) :
    roundQuotient (num * c) (den * c) = roundQuotient num den := by
  have hmod : 2 * (num * c % (den * c)) = 2 * (num % den) * c := by
    rw [Nat.mul_mod_mul_right, Nat.mul_assoc]
  simp only [roundQuotient, hmod, Nat.mul_div_mul_right _ _ hc, Nat.mul_lt_mul_right hc,
    Nat.mul_left_inj hc.ne']

namespace Decimal

theorem num_neg (digits places : Nat) : (⟨digits, -places⟩ : Decimal).num = digits := by
  simp [num]

theorem den_neg (digits places : Nat) : (⟨digits, -places⟩ : Decimal).den = Nat.pow 10 places := by
  simp [den]

end Decimal

namespace Double

variable {x : Double} {d : Decimal} {negative : Bool}

/-! ## Rounding -/

/-- Rounding depends on the quotient alone. -/
theorem nearestMagnitude_mul (num den : Nat) {c : Nat} (hc : 0 < c) :
    nearestMagnitude (num * c) (den * c) = nearestMagnitude num den := by
  simp only [nearestMagnitude, Nat.mul_right_comm _ c, Nat.mul_div_mul_right _ _ hc,
    roundQuotient_mul_right _ _ hc]

theorem nearestMagnitude_pow_five (num k : Nat) :
    nearestMagnitude (num * Nat.pow 5 k) (Nat.pow 10 k) = nearestMagnitude num (Nat.pow 2 k) := by
  have hpos : 0 < Nat.pow 5 k := Nat.pow_pos (by decide)
  rw [← nearestMagnitude_mul num (Nat.pow 2 k) hpos]
  simp only [Nat.pow_eq, ← Nat.mul_pow]

/-- A whole number of steps of its binade is not rounded. -/
theorem nearestMagnitude_steps {units q : Nat} (h : units = q * Nat.pow 2 (units.log2 - 52)) :
    nearestMagnitude units (Nat.pow 2 1074) = (units.log2 - 52) * binade + q := by
  have hpos : ∀ k, 0 < Nat.pow 2 k := fun k => Nat.pow_pos (by decide)
  unfold nearestMagnitude
  have hunit := hpos 1074
  generalize Nat.pow 2 1074 = unit at hunit ⊢
  have hscaled : units * unit = q * (unit * Nat.pow 2 (units.log2 - 52)) := by
    rw [Nat.mul_comm unit, ← Nat.mul_assoc, ← h]
  simp only [Nat.mul_div_cancel _ hunit]
  rw [hscaled, roundQuotient_mul (Nat.mul_pos hunit (hpos _))]

theorem log2_mul_pow {m : Nat} (hm : binade ≤ m) (hm' : m < 2 * binade) (k : Nat) :
    (m * Nat.pow 2 k).log2 - 52 = k := by
  have hpos : 0 < Nat.pow 2 k := Nat.pow_pos (by decide)
  have hlog : (m * Nat.pow 2 k).log2 = 52 + k := by
    rw [Nat.log2_eq_iff (Nat.mul_pos (by omega) hpos).ne', Nat.pow_add, Nat.add_right_comm,
      Nat.pow_add]
    exact ⟨Nat.mul_le_mul_right _ hm, Nat.mul_lt_mul_of_pos_right hm' hpos⟩
  rw [hlog, Nat.add_sub_cancel_left]

/-- The number nearest to a number is that number. -/
theorem nearestMagnitude_unitsOf (magnitude : Nat) :
    nearestMagnitude (unitsOf magnitude) (Nat.pow 2 1074) = magnitude := by
  unfold unitsOf
  split
  · next hlt =>
    -- below the first binade a step is the least one
    have hstep : magnitude.log2 - 52 = 0 := by
      rcases Nat.eq_zero_or_pos magnitude with rfl | hm
      · rfl
      · have := (Nat.log2_lt hm.ne').2 hlt
        omega
    rw [nearestMagnitude_steps (q := magnitude) (by simp [hstep]), hstep, Nat.zero_mul,
      Nat.zero_add]
  · next hge =>
    have hexponent : 0 < magnitude / binade := Nat.div_pos (Nat.not_lt.1 hge) (by decide)
    have hfraction : magnitude % binade < binade := Nat.mod_lt _ (by decide)
    have hstep := log2_mul_pow (m := binade + magnitude % binade) (Nat.le_add_right ..)
      (by omega) (magnitude / binade - 1)
    rw [nearestMagnitude_steps (q := binade + magnitude % binade) (by rw [hstep]), hstep]
    calc (magnitude / binade - 1) * binade + (binade + magnitude % binade)
        = (magnitude / binade - 1 + 1) * binade + magnitude % binade := by
          rw [Nat.succ_mul, Nat.add_assoc]
      _ = magnitude := by rw [Nat.sub_add_cancel hexponent, Nat.div_add_mod']

/-! ## Reading back -/

theorem unitsOf_pos {magnitude : Nat} (h : magnitude ≠ 0) : 0 < unitsOf magnitude := by
  unfold unitsOf
  split
  · exact Nat.pos_of_ne_zero h
  · exact Nat.mul_pos (Nat.add_pos_left (by decide) _) (Nat.pow_pos (by decide))

theorem ofMagnitude?_magnitude (h : x.isFinite = true) :
    ofMagnitude? x.negative x.magnitude = some x := by
  have hlt : x.magnitude < infinityMagnitude := of_decide_eq_true h
  exact dif_pos hlt

theorem le_log2_mul_pow {n : Nat} (hn : 0 < n) (k : Nat) : 2 * k ≤ (n * Nat.pow 5 k).log2 := by
  have hfive : 0 < Nat.pow 5 k := Nat.pow_pos (by decide)
  rw [Nat.le_log2 (Nat.mul_pos hn hfive).ne', Nat.pow_mul]
  exact (Nat.pow_le_pow_left (by decide) k).trans (Nat.le_mul_of_pos_left _ hn)

/-- A multiple of `2 ^ -k` given as one of `10 ^ -k`.  It has too many digits for the
    short cut to zero. -/
theorem ofDecimal?_pow_five (negative : Bool) {units k : Nat} (h : 0 < units) (hk : k ≤ 1076) :
    ofDecimal? negative ⟨units * Nat.pow 5 k, -k⟩ =
      ofMagnitude? negative (nearestMagnitude units (Nat.pow 2 k)) := by
  have hdigits : units * Nat.pow 5 k ≠ 0 := (Nat.mul_pos h (Nat.pow_pos (by decide))).ne'
  have hlog := le_log2_mul_pow h k
  have hexponent : ¬ (308 : Int) < -k := by omega
  have hcut : ¬ (units * Nat.pow 5 k).log2 + 1076 < 3 * (- -(k : Int)).toNat := by omega
  rw [ofDecimal?, if_neg hdigits, if_neg hexponent, if_neg hcut, Decimal.num_neg,
    Decimal.den_neg, nearestMagnitude_pow_five]

/-- A finite number in full reads back. -/
theorem readsBack_exactDecimal (hfinite : x.isFinite = true) (hx : x.magnitude.val ≠ 0) :
    x.ReadsBack x.exactDecimal := by
  have hpos : 0 < x.units := unitsOf_pos hx
  -- the places are a variable, so that no power of that size is computed
  have hfull : ∀ k, k = 1074 →
      ofDecimal? x.negative ⟨x.units * Nat.pow 5 k, -k⟩ = some x := by
    intro k hk
    have hnearest : nearestMagnitude x.units (Nat.pow 2 k) = x.magnitude := by
      rw [hk]
      exact nearestMagnitude_unitsOf _
    rw [ofDecimal?_pow_five _ hpos (by omega), hnearest, ofMagnitude?_magnitude hfinite]
  exact hfull 1074 rfl

/-- A whole number may be given in tenths. -/
theorem ofDecimal?_tenths (negative : Bool) (digits : Nat) {zeros : Nat} (h : zeros ≤ 308) :
    ofDecimal? negative ⟨digits * Nat.pow 10 (zeros + 1), -1⟩ =
      ofDecimal? negative ⟨digits, zeros⟩ := by
  have hnum : (⟨digits * Nat.pow 10 (zeros + 1), -1⟩ : Decimal).num =
      (⟨digits, zeros⟩ : Decimal).num * 10 := by
    simp [Decimal.num, Nat.pow_succ, Nat.mul_assoc]
  have hden : (⟨digits * Nat.pow 10 (zeros + 1), -1⟩ : Decimal).den =
      (⟨digits, zeros⟩ : Decimal).den * 10 := by
    simp [Decimal.den]
  have hpow : 0 < Nat.pow 10 (zeros + 1) := Nat.pow_pos (by decide)
  simp only [ofDecimal?, hnum, hden, nearestMagnitude_mul _ _ (show 0 < 10 by decide),
    Nat.mul_eq_zero, hpow.ne', or_false]
  split
  · rfl
  · rw [if_neg (by decide), if_neg (by omega), if_neg (by omega), if_neg (by omega)]

/-- **The shortest digits of a finite number read back as it.** -/
theorem readsBack_shortest (h : x.isFinite = true) : x.ReadsBack x.shortest := by
  unfold shortest
  split
  · next hzero =>
    obtain ⟨negative, magnitude⟩ := x
    cases hzero
    rfl
  · next hx =>
    cases hfind : x.findShortest? with
    | none => exact readsBack_exactDecimal h fun hzero => hx (Fin.ext hzero)
    | some d => exact readsBack_of_findShortest? hfind

/-- Zero is written as a single digit. -/
theorem exponent_shortest (h : x.isFinite = true) (hdigits : x.shortest.digits = 0) :
    x.shortest.exponent = 0 := by
  have hread := readsBack_shortest h
  rw [ReadsBack, ofDecimal?, if_pos hdigits, Option.some.injEq] at hread
  have hzero : x.magnitude = 0 := (congrArg Double.magnitude hread).symm
  rw [shortest, if_pos hzero]

end Double

end ScriptTree
