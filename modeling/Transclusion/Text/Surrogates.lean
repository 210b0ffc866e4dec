import Transclusion.Text.Basic

/-!
This module contains the surrogates: code points that are no characters. A text gets one on its own
from an escape that names half of a pair, or from a word of the command line that is no UTF-8. In the
text there is a character in its place. These stand-ins can be any characters that a run does not meet
otherwise, so everything that depends on them holds for every choice.
-/

namespace Transclusion

def isSurrogate (n : Nat) : Bool :=
  0xd800 ≤ n && n ≤ 0xdfff

class Surrogates where
  standIn : Nat → Char
  code? : Char → Option Nat
  code?_eq_some_iff {c : Char} {n : Nat} : code? c = some n ↔ isSurrogate n = true ∧ standIn n = c
  not_ascii {c : Char} {n : Nat} : code? c = some n → 128 ≤ c.toNat

namespace Surrogates

theorem toNat_ofNat {n : Nat} (lo : 0xe000 ≤ n) (hi : n < 0x110000) : (Char.ofNat n).toNat = n := by
  have h : n.isValidChar := .inr ⟨by omega, hi⟩
  rw [Char.ofNat, dif_pos h]
  rfl

/-- Stand-ins that follow one another from a character on. -/
abbrev block (first : Nat) (lo : 0xe000 ≤ first) (hi : first + 0x800 ≤ 0x110000) : Surrogates where
  standIn n := Char.ofNat (first + (n - 0xd800))
  code? c :=
    if first ≤ c.toNat && c.toNat < first + 0x800 then some (0xd800 + (c.toNat - first)) else none
  code?_eq_some_iff {c n} := by
    unfold isSurrogate
    constructor
    . intro h
      split at h
      next hc =>
        cases h
        simp only [Bool.and_eq_true, decide_eq_true_eq] at hc ⊢
        refine ⟨by omega, ?_⟩
        rw [Nat.add_sub_cancel_left, Nat.add_sub_cancel' hc.1, Char.ofNat_toNat]
      next => cases h
    . rintro ⟨hn, rfl⟩
      simp only [Bool.and_eq_true, decide_eq_true_eq] at hn
      have hchar : (Char.ofNat (first + (n - 0xd800))).toNat = first + (n - 0xd800) :=
        toNat_ofNat (by omega) (by omega)
      rw [hchar, if_pos (by simp; omega), Option.some.injEq]
      omega
  not_ascii {c n} h := by
    split at h
    next hc =>
      simp only [Bool.and_eq_true, decide_eq_true_eq] at hc
      omega
    next => cases h

abbrev lastBlock : Surrogates :=
  block 0x10f800 (by decide) (by decide)

end Surrogates
end Transclusion
