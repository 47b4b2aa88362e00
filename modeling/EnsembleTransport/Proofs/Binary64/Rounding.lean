import EnsembleTransport.Proofs.Binary64.Exact
import Mathlib.Algebra.Order.Round
import Mathlib.Data.Rat.Floor
import Mathlib.Tactic.Linarith

/-!
# Rounding to whole numbers

A value has a nearest whole number, and of two that are equally near the one farther from zero is
taken. Truncation keeps the whole part and forgets the rest, on either side of zero. Both are said
of rational values, apart from the operations that come to them.
-/

namespace EnsembleTransport

/-- The whole number nearest to a value; of two equally near ones the one farther from zero. -/
structure RoundsAway (value : ℚ) (n : ℤ) : Prop where
  nearest (m : ℤ) : |value - n| ≤ |value - m|
  away (m : ℤ) (tie : |value - m| = |value - n|) : |m| ≤ |n|

/-- The whole part of a value, toward zero. -/
structure TruncatesTo (value : ℚ) (n : ℤ) : Prop where
  near : |value - n| < 1
  toward : |(n : ℚ)| ≤ |value|

/-- Where there is no sign, away from zero is up. Two whole numbers that are equally near have the
value in the middle between them, so they are neighbours. -/
theorem roundsAway_round {value : ℚ} (hvalue : 0 ≤ value) : RoundsAway value (round value) := by
  obtain ⟨hlow, hhigh⟩ := round_eq_iff.mp (rfl : round value = round value)
  refine ⟨round_le value, fun m tie => ?_⟩
  rcases abs_eq_abs.mp tie with hsame | hopposite
  · have hm : m = round value := by exact_mod_cast sub_right_injective hsame
    rw [hm]
  · have hle : m ≤ round value := by
      have hlt : (m : ℚ) < (round value : ℤ) + 1 := by linarith
      exact Int.lt_add_one_iff.mp (by exact_mod_cast hlt)
    have hneg : -round value ≤ m := by
      have hcast : -((round value : ℤ) : ℚ) ≤ m := by linarith
      exact_mod_cast hcast
    exact (abs_le.mpr ⟨hneg, hle⟩).trans (le_abs_self _)

theorem round_natCast_div (num : ℕ) {den : ℕ} (hden : 0 < den) :
    round ((num : ℚ) / den) = roundHalfUp num den := by
  have hdenq : (den : ℚ) ≠ 0 := Nat.cast_ne_zero.mpr hden.ne'
  have hhalf : (num : ℚ) / den + 1 / 2 = ((2 * num + den : ℕ) : ℚ) / (2 * den : ℕ) := by
    push_cast
    field_simp
  rw [round_eq, hhalf, Rat.floor_natCast_div_natCast, Binary64.roundHalfUp_eq num hden,
    Int.natCast_ediv]

theorem roundsAway_roundHalfUp (num : ℕ) {den : ℕ} (hden : 0 < den) :
    RoundsAway ((num : ℚ) / den) (roundHalfUp num den) := by
  rw [← round_natCast_div num hden]
  exact roundsAway_round (by positivity)

theorem truncatesTo_tdiv (n : ℤ) {unit : ℕ} (hunit : 0 < unit) :
    TruncatesTo ((n : ℚ) / unit) (n.tdiv unit) := by
  have hunitq : (0 : ℚ) < unit := Nat.cast_pos.mpr hunit
  have hrest : (n : ℚ) / unit - (n.tdiv unit : ℤ) = (n.tmod unit : ℤ) / unit := by
    have hparts : (n : ℚ) = unit * (n.tdiv unit : ℤ) + (n.tmod unit : ℤ) := by
      exact_mod_cast (Int.mul_tdiv_add_tmod n unit).symm
    field_simp
    linarith
  constructor
  · have hsmall : |n.tmod unit| < unit :=
      abs_lt.mpr ⟨Int.lt_tmod_of_pos n (by omega), Int.tmod_lt_of_pos n (by omega)⟩
    rw [hrest, abs_div, abs_of_pos hunitq, div_lt_one hunitq]
    exact_mod_cast hsmall
  · have hwhole : |n.tdiv unit| * unit ≤ |n| := by
      rw [Int.abs_eq_natAbs, Int.abs_eq_natAbs, Int.natAbs_tdiv]
      exact_mod_cast Nat.div_mul_le_self n.natAbs unit
    rw [abs_div, abs_of_pos hunitq, le_div_iff₀ hunitq]
    exact_mod_cast hwhole

namespace Binary64

theorem Denotes.atLeast_iff {x : Binary64} {value : ℚ} (h : Denotes x value) (n : ℕ) :
    x.atLeast n = true ↔ (n : ℚ) ≤ value := by
  obtain ⟨mantissa, exponent, rfl, hvalue⟩ := h
  have hpos : (0 : ℚ) < denominator exponent := Nat.cast_pos.mpr (denominator_pos exponent)
  rw [← hvalue, ← numerator_div_denominator, le_div_iff₀ hpos]
  simp only [atLeast, Bool.not_false, Bool.true_or, Bool.true_and, decide_eq_true_eq]
  exact_mod_cast Iff.rfl

theorem roundWithin_bounds {low high : ℤ} (hlow : low ≤ 0) (hhigh : 0 ≤ high) (x : Binary64) :
    low ≤ x.roundWithin low high ∧ x.roundWithin low high ≤ high := by
  cases x with
  | notANumber => exact ⟨hlow, hhigh⟩
  | infinite negative =>
    rw [roundWithin]
    cases negative
    · exact ⟨hlow.trans hhigh, le_rfl⟩
    · exact ⟨le_rfl, hlow.trans hhigh⟩
  | finite negative mantissa exponent =>
    rw [roundWithin]
    omega

end Binary64

end EnsembleTransport
