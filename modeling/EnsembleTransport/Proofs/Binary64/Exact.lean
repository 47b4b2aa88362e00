import EnsembleTransport.Binary64
import Mathlib.Algebra.Order.Field.Power
import Mathlib.Data.Rat.Cast.Order
import Mathlib.Tactic.FieldSimp
import Mathlib.Tactic.Positivity
import Mathlib.Tactic.Ring

/-!
# Exact results

Every operation rounds an exact fraction. A fraction with a power of two below it and fewer than 54
bits above it is representable, so the operation gives the fraction itself.
-/

namespace EnsembleTransport

namespace Binary64

/-- The number is finite, without sign, and has this value. -/
def Denotes (x : Binary64) (value : ℚ) : Prop :=
  ∃ mantissa exponent, x = finite false mantissa exponent ∧ (mantissa : ℚ) * 2 ^ exponent = value

/-- A value that 53 bits in front of a scale of at most 1074 places can hold. -/
def Representable (value : ℚ) : Prop :=
  ∃ mantissa places : ℕ, mantissa < 2 ^ 53 ∧ places ≤ 1074 ∧ value * 2 ^ places = mantissa

theorem denominator_pos (exponent : ℤ) : 0 < denominator exponent := Nat.two_pow_pos _

theorem numerator_div_denominator (mantissa : ℕ) (exponent : ℤ) :
    (numerator mantissa exponent : ℚ) / denominator exponent = mantissa * 2 ^ exponent := by
  have htwo : (2 : ℚ) ≠ 0 := two_ne_zero
  have hsplit : exponent = (exponent.toNat : ℤ) - ((-exponent).toNat : ℤ) := by omega
  simp only [numerator, denominator, Nat.cast_mul, Nat.cast_pow, Nat.cast_ofNat]
  conv_rhs => rw [hsplit, zpow_sub₀ htwo, zpow_natCast, zpow_natCast]
  rw [mul_div_assoc]

section BinaryExponent

variable {num den : ℕ}

theorem scale_le_iff (hden : 0 < den) (exponent : ℤ) :
    den * 2 ^ exponent.toNat ≤ num * 2 ^ (-exponent).toNat ↔
      (2 : ℚ) ^ exponent ≤ (num : ℚ) / den := by
  have htwo : (2 : ℚ) ≠ 0 := two_ne_zero
  have hsplit : exponent = (exponent.toNat : ℤ) - ((-exponent).toNat : ℤ) := by omega
  have hdenq : (0 : ℚ) < den := Nat.cast_pos.mpr hden
  conv_rhs => rw [hsplit, zpow_sub₀ htwo, zpow_natCast, zpow_natCast,
    div_le_div_iff₀ (by positivity) hdenq]
  rw [mul_comm den]
  exact_mod_cast Iff.rfl

/-- The logarithms of both sides of a fraction enclose it within a factor of four. -/
theorem log2_bounds (hnum : num ≠ 0) (hden : 0 < den) :
    (2 : ℚ) ^ ((num.log2 : ℤ) - den.log2 - 1) ≤ (num : ℚ) / den ∧
      (num : ℚ) / den < 2 ^ ((num.log2 : ℤ) - den.log2 + 1) := by
  have htwo : (2 : ℚ) ≠ 0 := two_ne_zero
  have hdenq : (0 : ℚ) < den := Nat.cast_pos.mpr hden
  have hnumLow : (2 : ℚ) ^ num.log2 ≤ num := by exact_mod_cast Nat.log2_self_le hnum
  have hnumHigh : (num : ℚ) < 2 ^ (num.log2 + 1) := by exact_mod_cast Nat.lt_log2_self
  have hdenLow : (2 : ℚ) ^ den.log2 ≤ den := by exact_mod_cast Nat.log2_self_le hden.ne'
  have hdenHigh : (den : ℚ) < 2 ^ (den.log2 + 1) := by exact_mod_cast Nat.lt_log2_self
  have hlow : ((num.log2 : ℤ) - den.log2 - 1) = (num.log2 : ℤ) - ((den.log2 + 1 : ℕ) : ℤ) := by
    omega
  have hhigh : ((num.log2 : ℤ) - den.log2 + 1) = ((num.log2 + 1 : ℕ) : ℤ) - (den.log2 : ℤ) := by
    omega
  rw [hlow, hhigh, zpow_sub₀ htwo, zpow_sub₀ htwo, zpow_natCast, zpow_natCast, zpow_natCast,
    zpow_natCast]
  constructor
  · exact div_le_div₀ (by positivity) hnumLow hdenq hdenHigh.le
  · rw [div_lt_div_iff₀ hdenq (by positivity)]
    calc (num : ℚ) * 2 ^ den.log2 ≤ num * den := by gcongr
      _ < 2 ^ (num.log2 + 1) * den := by gcongr

/-- The binary exponent of a positive fraction is the place of its leading bit. -/
theorem binaryExponent_bounds (hnum : num ≠ 0) (hden : 0 < den) :
    (2 : ℚ) ^ binaryExponent num den ≤ (num : ℚ) / den ∧
      (num : ℚ) / den < 2 ^ (binaryExponent num den + 1) := by
  obtain ⟨hlow, hhigh⟩ := log2_bounds hnum hden
  unfold binaryExponent
  dsimp only
  split
  · rename_i hguess
    exact ⟨(scale_le_iff hden _).mp hguess, hhigh⟩
  · rename_i hguess
    rw [scale_le_iff hden, not_le] at hguess
    exact ⟨hlow, by rwa [sub_add_cancel]⟩

end BinaryExponent

/-- A fraction that is whole at the scale of its exponent is not rounded. -/
theorem nearest_of_whole {num den shift mantissa : ℕ} (hnum : num ≠ 0) (hden : 0 < den)
    (hexponent : max (binaryExponent num den - fractionBits) minExponent = -(shift : ℤ))
    (hwhole : num * 2 ^ shift = mantissa * den) (hmantissa : mantissa < 2 ^ (fractionBits + 1)) :
    nearest false num den = finite false mantissa (-shift) := by
  have hup : (- -(shift : ℤ)).toNat = shift := by omega
  have hdown : (-(shift : ℤ)).toNat = 0 := by omega
  have hround : roundHalfEven (num * 2 ^ shift) (den * 2 ^ 0) = mantissa := by
    rw [hwhole, Nat.pow_zero, Nat.mul_one, roundHalfEven_mul _ hden]
  have hmax : -(shift : ℤ) ≤ maxExponent := by
    rw [maxExponent]
    omega
  rw [nearest, if_neg hnum]
  simp only [hexponent, hup, hdown, hround]
  rw [if_pos hmantissa, if_pos hmax]

/-- Rounding leaves a representable fraction as it is: its leading bit stands at most 52 places in
front of the last one that counts. -/
theorem denotes_nearest {num den : ℕ} (hden : 0 < den)
    (h : Representable ((num : ℚ) / den)) :
    Denotes (nearest false num den) ((num : ℚ) / den) := by
  by_cases hnum : num = 0
  · exact ⟨0, minExponent, by rw [nearest, if_pos hnum], by simp [hnum]⟩
  obtain ⟨mantissa, places, hmantissa, hplaces, hvalue⟩ := h
  obtain ⟨hlow, hhigh⟩ := binaryExponent_bounds hnum hden
  have hdenq : (0 : ℚ) < den := Nat.cast_pos.mpr hden
  have hspan : binaryExponent num den + places < 53 := by
    have hlt : (2 : ℚ) ^ (binaryExponent num den + places) < 2 ^ (53 : ℤ) := by
      rw [zpow_add₀ two_ne_zero, zpow_natCast]
      calc (2 : ℚ) ^ binaryExponent num den * 2 ^ places ≤ num / den * 2 ^ places := by gcongr
        _ = mantissa := hvalue
        _ < 2 ^ (53 : ℤ) := by exact_mod_cast hmantissa
    exact (zpow_lt_zpow_iff_right₀ one_lt_two).mp hlt
  obtain ⟨shift, hshift, hexponent⟩ : ∃ shift, places ≤ shift ∧
      max (binaryExponent num den - fractionBits) minExponent = -(shift : ℤ) := by
    refine ⟨(-max (binaryExponent num den - fractionBits) minExponent).toNat, ?_, ?_⟩ <;>
      simp only [fractionBits, minExponent] <;> omega
  obtain ⟨spare, rfl⟩ := Nat.exists_eq_add_of_le hshift
  have hscaled : (num : ℚ) / den * 2 ^ (places + spare) = (mantissa * 2 ^ spare : ℕ) := by
    rw [pow_add, ← mul_assoc, hvalue]
    push_cast
    rfl
  have hwhole : num * 2 ^ (places + spare) = mantissa * 2 ^ spare * den := by
    have hcast : (num : ℚ) * 2 ^ (places + spare) = (mantissa * 2 ^ spare : ℕ) * den := by
      rw [← hscaled]
      field_simp
    exact_mod_cast hcast
  have hsmall : mantissa * 2 ^ spare < 2 ^ 53 := by
    have hroom : binaryExponent num den + 1 + (places + spare : ℕ) ≤ 53 := by
      simp only [fractionBits, minExponent] at hexponent
      omega
    have hlt : ((mantissa * 2 ^ spare : ℕ) : ℚ) < 2 ^ (53 : ℤ) := by
      rw [← hscaled]
      calc (num : ℚ) / den * 2 ^ (places + spare)
          < 2 ^ (binaryExponent num den + 1) * 2 ^ (places + spare) := by gcongr
        _ = 2 ^ (binaryExponent num den + 1 + (places + spare : ℕ)) := by
          rw [zpow_add₀ two_ne_zero _ ((places + spare : ℕ) : ℤ), zpow_natCast]
        _ ≤ 2 ^ (53 : ℤ) := zpow_le_zpow_right₀ one_le_two hroom
    exact_mod_cast hlt
  refine ⟨_, _, nearest_of_whole hnum hden hexponent hwhole hsmall, ?_⟩
  rw [← hscaled, zpow_neg, zpow_natCast]
  field_simp

theorem Representable.of_div {n places : ℕ} (hn : n < 2 ^ 53) (hplaces : places ≤ 1074) :
    Representable ((n : ℚ) / 2 ^ places) :=
  ⟨n, places, hn, hplaces, by field_simp⟩

theorem denotes_ofNat {n : ℕ} (h : n < 2 ^ 53) : Denotes (ofNat n) n := by
  have hwhole : (n : ℚ) / (1 : ℕ) = n := by rw [Nat.cast_one, div_one]
  have hrepresentable : Representable ((n : ℚ) / (1 : ℕ)) := by
    rw [hwhole]
    simpa using Representable.of_div h (Nat.zero_le 1074)
  have hnearest := denotes_nearest one_pos hrepresentable
  rwa [hwhole] at hnearest

section Operations

variable {x y : Binary64} {p q : ℚ}

theorem Denotes.product (hx : Denotes x p) (hy : Denotes y q) (h : Representable (p * q)) :
    Denotes (x.product y) (p * q) := by
  obtain ⟨m, e, rfl, rfl⟩ := hx
  obtain ⟨n, f, rfl, rfl⟩ := hy
  have hvalue : (numerator (m * n) (e + f) : ℚ) / denominator (e + f) =
      m * 2 ^ e * (n * 2 ^ f) := by
    rw [numerator_div_denominator, zpow_add₀ two_ne_zero, Nat.cast_mul]
    ring
  rw [← hvalue] at h ⊢
  exact denotes_nearest (denominator_pos _) h

theorem Denotes.quotient (hx : Denotes x p) (hy : Denotes y q) (hq : q ≠ 0)
    (h : Representable (p / q)) : Denotes (x.quotient y) (p / q) := by
  obtain ⟨m, e, rfl, rfl⟩ := hx
  obtain ⟨n, f, rfl, rfl⟩ := hy
  have hn : n ≠ 0 := by
    rintro rfl
    simp at hq
  have hvalue : (numerator m (e - f) : ℚ) / (n * denominator (e - f) : ℕ) =
      m * 2 ^ e / (n * 2 ^ f) := by
    rw [Nat.cast_mul, mul_comm (n : ℚ), ← div_div, numerator_div_denominator,
      zpow_sub₀ two_ne_zero]
    field_simp
  rw [← hvalue] at h ⊢
  rw [Binary64.quotient, if_neg hn]
  exact denotes_nearest (Nat.mul_pos (Nat.pos_of_ne_zero hn) (denominator_pos _)) h

end Operations

theorem roundHalfUp_eq (num : ℕ) {den : ℕ} (hden : 0 < den) :
    roundHalfUp num den = (2 * num + den) / (2 * den) := by
  have hparts : 2 * num + den = 2 * (num % den) + den + 2 * den * (num / den) := by
    have := Nat.mod_add_div num den
    rw [mul_assoc]
    omega
  have hmod := Nat.mod_lt num hden
  rw [roundHalfUp, hparts, Nat.add_mul_div_left _ _ (by omega)]
  split
  · have hdown : (2 * (num % den) + den) / (2 * den) = 0 := Nat.div_eq_of_lt (by omega)
    rw [hdown, Nat.zero_add]
  · have hup : (2 * (num % den) + den) / (2 * den) = 1 :=
      Nat.div_eq_of_lt_le (by omega) (by omega)
    rw [hup, Nat.add_comm]

theorem roundHalfUp_congr {num den num' den' : ℕ} (hden : 0 < den) (hden' : 0 < den')
    (h : (num : ℚ) / den = num' / den') : roundHalfUp num den = roundHalfUp num' den' := by
  have hcross : num * den' = num' * den := by
    rw [div_eq_div_iff (by positivity) (by positivity)] at h
    exact_mod_cast h
  rw [roundHalfUp_eq num hden, roundHalfUp_eq num' hden',
    ← Nat.mul_div_mul_right _ _ hden', ← Nat.mul_div_mul_right (2 * num' + den') _ hden]
  congr 1
  · rw [Nat.add_mul, Nat.add_mul, mul_assoc, mul_assoc, hcross, mul_comm den]
  · rw [mul_assoc, mul_assoc, mul_comm den]

theorem Denotes.roundWithin {x : Binary64} {num den : ℕ} (h : Denotes x ((num : ℚ) / den))
    (hden : 0 < den) (low high : ℤ) :
    x.roundWithin low high = max low (min high (roundHalfUp num den)) := by
  obtain ⟨m, e, rfl, hvalue⟩ := h
  rw [← numerator_div_denominator] at hvalue
  rw [Binary64.roundWithin, roundHalfUp_congr (denominator_pos e) hden hvalue]
  rfl

end Binary64

end EnsembleTransport
