import Mathlib.Data.Char
import Mathlib.Data.List.Lex
import Transclusion.Text.Basic

/-!
This module contains the order of texts: comparing code points one by one is the lexicographic order
(`le_iff`), hence a total order in which a text comes before its extensions.
-/

namespace Transclusion
namespace Text

theorem le_iff {s t : Text} : le s t = true ↔ s ≤ t := by
  rw [← not_lt]
  induction s generalizing t with
  | nil => exact iff_of_true rfl (List.not_lt_nil t)
  | cons a s ih =>
    cases t with
    | nil => exact iff_of_false Bool.false_ne_true (not_not.mpr (List.nil_lt_cons a s))
    | cons b t =>
      rw [List.cons_lt_cons_iff, le, Bool.or_eq_true, Bool.and_eq_true, ih, beq_iff_eq,
        decide_eq_true_eq]
      change a < b ∨ a = b ∧ ¬ t < s ↔ ¬ (b < a ∨ b = a ∧ t < s)
      rcases lt_trichotomy a b with hlt | rfl | hgt
      . simp [hlt, hlt.not_gt, hlt.ne']
      . simp
      . simp [hgt, hgt.not_gt, hgt.ne']

theorem le_total (s t : Text) : (le s t || le t s) = true := by
  rw [Bool.or_eq_true, le_iff, le_iff]
  exact LinearOrder.le_total s t

theorem le_trans (s t u : Text) (hst : le s t = true) (htu : le t u = true) : le s u = true := by
  rw [le_iff] at hst htu ⊢
  exact Preorder.le_trans s t u hst htu

theorem le_antisymm {s t : Text} (hst : le s t = true) (hts : le t s = true) : s = t := by
  rw [le_iff] at hst hts
  exact PartialOrder.le_antisymm s t hst hts

theorem le_of_prefix {s t : Text} (h : s <+: t) : le s t = true := by
  rw [le_iff, ← not_lt]
  exact h.le

end Text
end Transclusion
