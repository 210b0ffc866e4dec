import Transclusion.Text.Alphanumeric
import Transclusion.Text.Case

/-!
This module contains the case of texts: lower case leaves no text empty that was not (`lower_eq_nil_iff`),
and an ASCII text is mapped character by character (`lower_of_ascii`). A letter or digit stays one
(`case_of_ascii`).
-/

namespace Transclusion
namespace Text

theorem lowerChar_ne_nil (c : Char) : lowerChar c ≠ [] := by
  unfold lowerChar
  split
  . simp
  . split <;> simp

theorem lower_eq_nil_iff {text : Text} : lower text = [] ↔ text = [] := by
  cases text with
  | nil => exact ⟨fun _ => rfl, fun _ => rfl⟩
  | cons c rest =>
    refine ⟨fun h => ?_, fun h => nomatch h⟩
    unfold lower lower.go at h
    dsimp only at h
    rw [List.append_eq_nil_iff] at h
    split at h
    . split at h <;> cases h.1
    . exact absurd h.1 (lowerChar_ne_nil c)

/-! ## ASCII -/

theorem upperChar_of_ascii {c : Char} (h : c.toNat < 128) : upperChar c = [c.toUpper] :=
  if_pos h

theorem lower_of_ascii {text : Text} (h : ∀ c ∈ text, c.toNat < 128)
    : lower text = text.map Char.toLower := by
  unfold lower
  generalize ([] : Text) = before
  induction text generalizing before with
  | nil => rfl
  | cons c rest ih =>
    have hc := h c List.mem_cons_self
    have hsigma : (c == 'Σ') = false := by
      rw [beq_eq_false_iff_ne]
      rintro rfl
      exact absurd hc (by decide)
    rw [lower.go, hsigma, ih (fun d hd => h d (List.mem_cons_of_mem c hd)) (c :: before)]
    simp [lowerChar, hc]

theorem of_ascii {P : Char → Prop} (h : ∀ n < 128, P (Char.ofNat n)) {c : Char}
    (hc : c.toNat < 128) : P c := by
  have := h c.toNat hc
  rwa [Char.ofNat_toNat] at this

theorem toUpper_toLower {c : Char} (hascii : c.toNat < 128) (hlower : c.isLower = false)
    : c.toLower.toUpper = c :=
  of_ascii (P := fun c => c.isLower = false → c.toLower.toUpper = c) (by decide +kernel) hascii hlower

theorem case_of_ascii {f : Char → Char} (hf : f = Char.toUpper ∨ f = Char.toLower) {c : Char}
    (hc : c.toNat < 128)
    : (f c).toNat < 128 ∧ isAlphanumeric (f c) = isAlphanumeric c ∧ f (f c) = f c := by
  apply of_ascii _ hc
  rcases hf with rfl | rfl
  . decide +kernel
  . decide +kernel

end Text
end Transclusion
