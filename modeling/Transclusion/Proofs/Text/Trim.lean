import Mathlib.Data.List.DropRight
import Mathlib.Data.List.TakeWhile
import Transclusion.Text.Blank

/-!
This module contains the trimming of texts: what is taken away at the two ends (`exists_eq_trimBoth`), and
that what stands around a text does not matter (`trimBoth_append`).
-/

namespace Transclusion
namespace Text

variable {p : Char → Bool} {before after text : Text}

theorem trimBoth_eq_rdropWhile (p : Char → Bool) (text : Text)
    : trimBoth p text = (text.dropWhile p).rdropWhile p := by rfl

theorem trimBoth_append (hbefore : ∀ c ∈ before, p c = true) (hafter : ∀ c ∈ after, p c = true)
    (text : Text) : trimBoth p (before ++ text ++ after) = trimBoth p text := by
  unfold trimBoth
  rw [List.append_assoc, List.dropWhile_append_of_pos hbefore, List.dropWhile_append]
  split
  next hempty =>
    rw [List.isEmpty_iff] at hempty
    rw [hempty, List.dropWhile_eq_nil_iff.mpr hafter]
  next =>
    have hreversed : ∀ c ∈ after.reverse, p c = true := by
      intro c hc
      exact hafter c (List.mem_reverse.mp hc)
    rw [List.reverse_append, List.dropWhile_append_of_pos hreversed]

theorem exists_eq_trimBoth (p : Char → Bool) (text : Text)
    : ∃ before after, text = before ++ trimBoth p text ++ after ∧ (∀ c ∈ before, p c = true) ∧
        ∀ c ∈ after, p c = true := by
  refine ⟨text.takeWhile p, (text.dropWhile p).rtakeWhile p, ?_, ?_, ?_⟩
  . rw [trimBoth_eq_rdropWhile, List.append_assoc, List.rdropWhile_append_rtakeWhile,
      List.takeWhile_append_dropWhile]
  . intro c hc
    exact List.mem_takeWhile_imp hc
  . intro c hc
    exact List.mem_rtakeWhile_imp hc

theorem trimBoth_of_forall (h : ∀ c ∈ text, p c = false) : trimBoth p text = text := by
  have hdrop : ∀ text : Text, (∀ c ∈ text, p c = false) → text.dropWhile p = text := by
    intro text h
    rw [List.dropWhile_eq_self_iff]
    intro hlength hhead
    rw [h _ (List.getElem_mem hlength)] at hhead
    cases hhead
  unfold trimBoth
  rw [hdrop text h, hdrop _ fun c hc => h c (List.mem_reverse.mp hc), List.reverse_reverse]

theorem trimBoth_eq_nil_iff : trimBoth p text = [] ↔ ∀ c ∈ text, p c = true := by
  constructor
  . intro h
    obtain ⟨before, after, htext, hbefore, hafter⟩ := exists_eq_trimBoth p text
    rw [h, List.append_nil] at htext
    intro c hc
    rw [htext, List.mem_append] at hc
    rcases hc with hc | hc
    . exact hbefore c hc
    . exact hafter c hc
  . intro h
    rw [trimBoth_eq_rdropWhile, List.dropWhile_eq_nil_iff.mpr h, List.rdropWhile_nil]

theorem trimBoth_trimBoth (p : Char → Bool) (text : Text)
    : trimBoth p (trimBoth p text) = trimBoth p text := by
  obtain ⟨before, after, htext, hbefore, hafter⟩ := exists_eq_trimBoth p text
  rw [← trimBoth_append hbefore hafter (trimBoth p text), ← htext]

end Text
end Transclusion
