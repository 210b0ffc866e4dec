import Mathlib.Algebra.Order.Field.Power
import Mathlib.Algebra.Order.Floor.Ring
import Mathlib.Data.Rat.Cast.Order
import Mathlib.Data.Rat.Floor
import Mathlib.Tactic.Linarith
import Mathlib.Tactic.Positivity
import Transclusion.Decimal.Binary64

/-!
This module contains when two doubles, or a double and an integer, are the same number: canonical
doubles are compared by their parts (`eqv_iff`), and integers by cross-multiplying (`eqInt_iff`).
Rounding gives canonical doubles (`canonical_rounded`).
-/

namespace Transclusion
namespace Binary64

def Canonical : Binary64 → Prop
  | .finite _ mantissa exponent =>
    mantissa < mantissaBound ∧ minExponent ≤ exponent ∧
      (exponent = minExponent ∨ mantissaBound ≤ 2 * mantissa)
  | _ => True

instance : (x : Binary64) → Decidable x.Canonical
  | .finite _ mantissa exponent =>
    inferInstanceAs (Decidable (mantissa < mantissaBound ∧ minExponent ≤ exponent ∧
      (exponent = minExponent ∨ mantissaBound ≤ 2 * mantissa)))
  | .nan _ => inferInstanceAs (Decidable True)
  | .infinite _ => inferInstanceAs (Decidable True)

/-! ## Numbers -/

def number (negative : Bool) (mantissa : Nat) (exponent : Int) : ℚ :=
  (if negative then -1 else 1) * (mantissa * 2 ^ exponent)

theorem number_eq_zero_iff {negative : Bool} {mantissa : Nat} {exponent : Int}
    : number negative mantissa exponent = 0 ↔ mantissa = 0 := by
  have hpower : (2 : ℚ) ^ exponent ≠ 0 := zpow_ne_zero _ (by decide)
  unfold number
  cases negative <;> simp [hpower]

theorem abs_number (negative : Bool) (mantissa : Nat) (exponent : Int)
    : |number negative mantissa exponent| = mantissa * 2 ^ exponent := by
  have hnonneg : (0 : ℚ) ≤ mantissa * 2 ^ exponent :=
    mul_nonneg (Nat.cast_nonneg _) (zpow_nonneg (by decide) _)
  unfold number
  cases negative <;> simp [abs_of_nonneg hnonneg]

-- With a larger exponent the mantissa would be at least twice as large.
theorem exponent_le {m n : Nat} {e f : Int} (hm : m < mantissaBound)
    (hn : f = minExponent ∨ mantissaBound ≤ 2 * n) (he : minExponent ≤ e)
    (h : (m : ℚ) * 2 ^ e = n * 2 ^ f) : f ≤ e := by
  by_contra hlt
  obtain ⟨k, rfl⟩ : ∃ k : Nat, f = e + (k + 1) := ⟨(f - e - 1).toNat, by omega⟩
  have hlarge : mantissaBound ≤ 2 * n := hn.resolve_left (by omega)
  have hpower : (2 : ℚ) ^ e ≠ 0 := zpow_ne_zero _ (by decide)
  have hsplit : (2 : ℚ) ^ (e + ((k : Int) + 1)) = 2 ^ e * (2 ^ k * 2) := by
    rw [zpow_add₀ (by decide), zpow_add_one₀ (by decide), zpow_natCast]
  rw [hsplit, mul_comm (m : ℚ), mul_left_comm] at h
  have hmantissa : (m : ℚ) = n * (2 ^ k * 2) := mul_left_cancel₀ hpower h
  have hnat : m = n * (2 ^ k * 2) := by exact_mod_cast hmantissa
  have hle : n * (1 * 2) ≤ n * (2 ^ k * 2) :=
    Nat.mul_le_mul_left n (Nat.mul_le_mul_right 2 (Nat.two_pow_pos k))
  rw [← hnat] at hle
  omega

theorem parts_eq_of_number_eq {a b : Bool} {m n : Nat} {e f : Int} (hx : (finite a m e).Canonical)
    (hy : (finite b n f).Canonical) (hm : m ≠ 0) (h : number a m e = number b n f)
    : a = b ∧ m = n ∧ e = f := by
  have habs := congrArg abs h
  rw [abs_number, abs_number] at habs
  have hexponent : e = f :=
    le_antisymm (exponent_le hy.1 hx.2.2 hy.2.1 habs.symm) (exponent_le hx.1 hy.2.2 hx.2.1 habs)
  subst hexponent
  have hpower : (2 : ℚ) ^ e ≠ 0 := zpow_ne_zero _ (by decide)
  have hmantissa : m = n := by exact_mod_cast mul_right_cancel₀ hpower habs
  subst hmantissa
  refine ⟨?_, rfl, rfl⟩
  have hne : (m : ℚ) * 2 ^ e ≠ 0 := mul_ne_zero (by exact_mod_cast hm) hpower
  have hsign := mul_right_cancel₀ hne h
  have hdiffer : (-1 : ℚ) ≠ 1 := by decide
  cases a <;> cases b
  . rfl
  . exact absurd hsign.symm hdiffer
  . exact absurd hsign hdiffer
  . rfl

theorem eqv_iff {a b : Bool} {m n : Nat} {e f : Int} (hx : (finite a m e).Canonical)
    (hy : (finite b n f).Canonical)
    : (finite a m e).eqv (finite b n f) = true ↔ number a m e = number b n f := by
  by_cases hm : m = 0
  . have hzero : number a m e = 0 := number_eq_zero_iff.mpr hm
    have hother : 0 = number b n f ↔ n = 0 := eq_comm.trans number_eq_zero_iff
    rw [hzero, hother]
    simp only [eqv, hm, beq_self_eq_true, Bool.true_and, Bool.or_eq_true, Bool.and_eq_true, beq_iff_eq]
    constructor
    . rintro (h | h)
      . exact h
      . exact h.1.2.symm
    . exact .inl
  . constructor
    . intro h
      simp [eqv, hm] at h
      rw [h.1.1, h.1.2, h.2]
    . intro h
      obtain ⟨rfl, rfl, rfl⟩ := parts_eq_of_number_eq hx hy hm h
      simp [eqv]

theorem scale_ofNat (num den k : Nat) : scale num den (Int.ofNat k) = (num * 2 ^ k, den) := by
  simp [scale, power]

theorem scale_negSucc (num den k : Nat)
    : scale num den (Int.negSucc k) = (num, den * 2 ^ (k + 1)) := by
  rw [scale, power, if_neg (by simp)]
  simp

theorem exists_fraction?_eq (negative : Bool) (mantissa : Nat) (exponent : Int)
    : ∃ num den, (finite negative mantissa exponent).fraction? = some (num, den) ∧ (den : ℚ) ≠ 0 ∧
        number negative mantissa exponent * den = num := by
  have htwo : (2 : ℚ) ≠ 0 := by decide
  unfold number
  cases exponent with
  | ofNat k =>
    rw [fraction?, scale_ofNat]
    refine ⟨_, _, rfl, by simp, ?_⟩
    cases negative <;> simp
  | negSucc k =>
    rw [fraction?, scale_negSucc]
    refine ⟨_, _, rfl, by simp, ?_⟩
    cases negative <;> simp [zpow_negSucc]

theorem eqInt_iff {a : Bool} {m : Nat} {e n : Int}
    : (finite a m e).eqInt n = true ↔ number a m e = n := by
  obtain ⟨num, den, hfraction, hden, hnumber⟩ := exists_fraction?_eq a m e
  rw [eqInt, hfraction]
  dsimp only
  rw [beq_iff_eq, ← mul_left_inj' hden, hnumber]
  exact_mod_cast Iff.rfl

theorem truncate?_finite (negative : Bool) (mantissa : Nat) (exponent : Int)
    : (finite negative mantissa exponent).truncate?
        =
      some (if negative then ⌈number negative mantissa exponent⌉
        else ⌊number negative mantissa exponent⌋) := by
  obtain ⟨num, den, hfraction, hden, hnumber⟩ := exists_fraction?_eq false mantissa exponent
  have hfloor : num.tdiv den = ⌊number false mantissa exponent⌋ := by
    rw [← eq_div_iff hden] at hnumber
    have hnonneg : 0 ≤ num := by
      simp only [fraction?, Option.some.injEq, Prod.mk.injEq] at hfraction
      rw [← hfraction.1]
      exact Int.natCast_nonneg _
    rw [hnumber, Rat.floor_intCast_div_natCast, Int.tdiv_eq_ediv_of_nonneg hnonneg]
  cases negative with
  | false => simp [truncate?, hfraction, hfloor]
  | true =>
    have hnegated : (finite true mantissa exponent).fraction? = some (-num, den) := by
      simp only [fraction?, Option.some.injEq, Prod.mk.injEq] at hfraction ⊢
      exact ⟨congrArg Neg.neg hfraction.1, hfraction.2⟩
    have hsign : number true mantissa exponent = -number false mantissa exponent := by
      simp [number]
    simp [truncate?, hnegated, Int.neg_tdiv, hfloor, hsign, Int.ceil_neg]

/-! ## Rounding -/

variable {num den : Nat}

def guess (num den : Nat) : Int := (num.log2 : Int) - den.log2 - 53

def unitsAt (num den : Nat) (exponent : Int) : Nat :=
  (scale num den (-exponent)).1 / (scale num den (-exponent)).2

def fitting (num den : Nat) : Int :=
  if unitsAt num den (guess num den) < mantissaBound then guess num den else guess num den + 1

def carried (negative : Bool) (mantissa : Nat) (exponent : Int) : Binary64 :=
  let (mantissa, exponent) :=
    if mantissa = mantissaBound then (mantissaBound / 2, exponent + 1) else (mantissa, exponent)
  if maxExponent < exponent then .infinite negative else .finite negative mantissa exponent

theorem rounded_eq (negative : Bool) (h : num ≠ 0)
    : rounded negative num den
        =
      carried negative
        (divNearest (scale num den (-max (fitting num den) minExponent)).1
          (scale num den (-max (fitting num den) minExponent)).2)
        (max (fitting num den) minExponent) := by
  rw [rounded, if_neg h]
  rfl

theorem unitsAt_lt_iff {k : Nat} {e : Int} (hden : 0 < den)
    : unitsAt num den e < k ↔ (num : ℚ) * 2 ^ (-e) < k * den := by
  rw [unitsAt]
  cases -e with
  | ofNat j =>
    rw [scale_ofNat, Nat.div_lt_iff_lt_mul hden, Int.ofNat_eq_natCast, zpow_natCast]
    exact_mod_cast Iff.rfl
  | negSucc j =>
    have hpower : 0 < 2 ^ (j + 1) := Nat.two_pow_pos _
    rw [scale_negSucc, Nat.div_lt_iff_lt_mul (Nat.mul_pos hden hpower), zpow_negSucc,
      mul_inv_lt_iff₀ (by exact_mod_cast hpower), mul_assoc]
    exact_mod_cast Iff.rfl

theorem two_pow_log2_mul_guess (num den : Nat)
    : (2 : ℚ) ^ num.log2 * 2 ^ (-guess num den) = 2 ^ 53 * 2 ^ den.log2 := by
  rw [← zpow_natCast, ← zpow_natCast, ← zpow_natCast, ← zpow_add₀ (by decide),
    ← zpow_add₀ (by decide)]
  congr 1
  simp only [guess]
  omega

theorem two_pow_mul_le_guess (hnum : num ≠ 0)
    : (2 : ℚ) ^ 52 * den ≤ num * 2 ^ (-guess num den) := by
  have hlow : (2 : ℚ) ^ num.log2 ≤ num := by exact_mod_cast Nat.log2_self_le hnum
  have hhigh : (den : ℚ) ≤ 2 ^ den.log2 * 2 := by exact_mod_cast Nat.lt_log2_self.le
  calc (2 : ℚ) ^ 52 * den
    _ ≤ 2 ^ 53 * 2 ^ den.log2 := by linarith
    _ = 2 ^ num.log2 * 2 ^ (-guess num den) := (two_pow_log2_mul_guess num den).symm
    _ ≤ num * 2 ^ (-guess num den) := mul_le_mul_of_nonneg_right hlow (by positivity)

theorem guess_lt_two_pow_mul (hden : den ≠ 0)
    : (num : ℚ) * 2 ^ (-guess num den) < 2 ^ 54 * den := by
  have hlow : (2 : ℚ) ^ den.log2 ≤ den := by exact_mod_cast Nat.log2_self_le hden
  have hhigh : (num : ℚ) < 2 ^ num.log2 * 2 := by exact_mod_cast Nat.lt_log2_self
  calc (num : ℚ) * 2 ^ (-guess num den)
    _ < 2 ^ num.log2 * 2 * 2 ^ (-guess num den) := mul_lt_mul_of_pos_right hhigh (by positivity)
    _ = 2 ^ 53 * 2 ^ den.log2 * 2 := by rw [mul_right_comm, two_pow_log2_mul_guess]
    _ ≤ 2 ^ 54 * den := by linarith

theorem bounds_fitting (hnum : num ≠ 0) (hden : 0 < den)
    : (num : ℚ) * 2 ^ (-fitting num den) < mantissaBound * den ∧
        ((mantissaBound / 2 : Nat) : ℚ) * den ≤ num * 2 ^ (-fitting num den) := by
  have hlow : (2 : ℚ) ^ 52 * den ≤ num * 2 ^ (-guess num den) := two_pow_mul_le_guess hnum
  have hhigh : (num : ℚ) * 2 ^ (-guess num den) < 2 ^ 54 * den := guess_lt_two_pow_mul hden.ne'
  have hhalf : ((mantissaBound / 2 : Nat) : ℚ) = 2 ^ 52 := by norm_num [mantissaBound]
  have hbound : (mantissaBound : ℚ) = 2 ^ 53 := by norm_num [mantissaBound]
  rw [fitting, hhalf]
  split
  next h => exact ⟨(unitsAt_lt_iff hden).mp h, hlow⟩
  next h =>
    rw [unitsAt_lt_iff hden, hbound, not_lt] at h
    have hnext : (2 : ℚ) ^ (-(guess num den + 1)) = 2 ^ (-guess num den) / 2 := by
      rw [neg_add, zpow_add₀ (by decide), zpow_neg_one, div_eq_mul_inv]
    rw [hnext, hbound]
    constructor <;> linarith

theorem unitsAt_max_lt (hnum : num ≠ 0) (hden : 0 < den)
    : unitsAt num den (max (fitting num den) minExponent) < mantissaBound := by
  rw [unitsAt_lt_iff hden]
  apply lt_of_le_of_lt _ (bounds_fitting hnum hden).1
  apply mul_le_mul_of_nonneg_left _ (Nat.cast_nonneg num)
  exact zpow_le_zpow_right₀ (by decide) (neg_le_neg (le_max_left _ _))

theorem le_unitsAt_max (hnum : num ≠ 0) (hden : 0 < den)
    : max (fitting num den) minExponent = minExponent ∨
        mantissaBound / 2 ≤ unitsAt num den (max (fitting num den) minExponent) := by
  rcases le_total (fitting num den) minExponent with h | h
  . exact .inl (max_eq_right h)
  . right
    rw [max_eq_left h, ← not_lt, unitsAt_lt_iff hden, not_lt]
    exact (bounds_fitting hnum hden).2

theorem le_divNearest (n d : Nat) : n / d ≤ divNearest n d := by
  rw [divNearest]
  split
  . rfl
  . split <;> omega

theorem divNearest_le (n d : Nat) : divNearest n d ≤ n / d + 1 := by
  rw [divNearest]
  split
  . omega
  . split <;> omega

theorem canonical_zeroOf (negative : Bool) : (zeroOf negative).Canonical := by
  cases negative <;> decide

theorem canonical_carried {negative : Bool} {mantissa : Nat} {exponent : Int}
    (hmantissa : mantissa ≤ mantissaBound) (hexponent : minExponent ≤ exponent)
    (h : exponent = minExponent ∨ mantissaBound ≤ 2 * mantissa)
    : (carried negative mantissa exponent).Canonical := by
  unfold carried
  split
  next hparts =>
    split
    . trivial
    . split at hparts
      . cases hparts
        exact ⟨by decide, by omega, .inr (by decide)⟩
      . cases hparts
        exact ⟨by omega, hexponent, h⟩

theorem canonical_rounded (negative : Bool) (num : Nat) (hden : 0 < den)
    : (rounded negative num den).Canonical := by
  by_cases hnum : num = 0
  . rw [rounded, if_pos hnum]
    exact canonical_zeroOf negative
  . rw [rounded_eq negative hnum]
    apply canonical_carried
    . exact (divNearest_le _ _).trans (unitsAt_max_lt hnum hden)
    . exact le_max_right _ _
    . apply (le_unitsAt_max hnum hden).imp_right
      intro hle
      have hmantissa := hle.trans (le_divNearest _ _)
      unfold mantissaBound at *
      omega

theorem power_snd_pos {base : Nat} (h : 0 < base) (exponent : Int) : 0 < (power base exponent).2 := by
  rw [power]
  split
  . exact Nat.one_pos
  . exact Nat.pow_pos h

theorem canonical_rounded_scale (negative : Bool) (num : Nat) (exponent : Int)
    : (rounded negative (scale num 1 exponent).1 (scale num 1 exponent).2).Canonical :=
  canonical_rounded _ _ (Nat.mul_pos Nat.one_pos (power_snd_pos (by decide) exponent))

theorem canonical_ofDecimal (negative : Bool) (digits : Nat) (exponent : Int)
    : (ofDecimal negative digits exponent).Canonical := by
  rw [ofDecimal]
  split
  . exact canonical_zeroOf negative
  . dsimp only
    split
    . trivial
    . split
      . exact canonical_zeroOf negative
      . exact canonical_rounded _ _ (power_snd_pos (by decide) _)

theorem canonical_add (x y : Binary64) : (x.add y).Canonical := by
  cases x
  all_goals cases y
  case finite.finite =>
    rw [add]
    split
    . exact canonical_zeroOf _
    . exact canonical_rounded_scale _ _ _
  case infinite.infinite =>
    rw [add]
    split <;> trivial
  all_goals trivial

theorem canonical_neg {x : Binary64} (h : x.Canonical) : x.neg.Canonical := by
  cases x <;> exact h

end Binary64
end Transclusion
