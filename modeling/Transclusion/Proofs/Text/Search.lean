import Transclusion.Text.Basic

/-!
This module contains what is known about the place of a pattern in a text that is put together from
parts: a pattern either lies in one part or crosses a seam, and a character that it does not have
keeps it from crossing.
-/

namespace Transclusion
namespace Text

theorem slice_append {a b c : Text} {start stop : Nat} (hstart : start = a.length)
    (hstop : stop = a.length + b.length) : slice (a ++ (b ++ c)) start stop = b := by
  unfold slice
  rw [hstart, hstop, List.drop_left, Nat.add_sub_cancel_left, List.take_left]

theorem exists_append_of_not_mem {fixed after u v : Text} {c : Char}
    (h : fixed ++ after = u ++ c :: v) (hc : c ∉ fixed)
    : ∃ u', u = fixed ++ u' ∧ after = u' ++ c :: v := by
  rcases List.append_eq_append_iff.mp h with ⟨u', hu, hafter⟩ | ⟨w, hfixed, hw⟩
  . exact ⟨u', hu, hafter⟩
  . cases w with
    | nil =>
      refine ⟨[], ?_, ?_⟩
      . simpa using hfixed.symm
      . simpa using hw.symm
    | cons d w =>
      rw [List.cons_append, List.cons.injEq] at hw
      rw [hfixed, hw.1] at hc
      simp at hc

theorem append_eq_append_cases {a s x t : Text} (h : a ++ s = x ++ t)
    : (∃ x', x = a ++ x' ∧ s = x' ++ t) ∨ ∃ u, u ≠ [] ∧ a = x ++ u ∧ t = u ++ s := by
  rcases List.append_eq_append_iff.mp h with hbehind | ⟨u, ha, ht⟩
  . exact .inl hbehind
  . by_cases hu : u = []
    . left
      refine ⟨[], ?_, ?_⟩
      . simp [ha, hu]
      . simp [ht, hu]
    . exact .inr ⟨u, hu, ha, ht⟩

theorem prefix_append_cons_iff {fixed u v : Text} {c : Char} (hc : c ∉ fixed)
    : fixed <+: u ++ c :: v ↔ fixed <+: u := by
  constructor
  . intro ⟨after, h⟩
    obtain ⟨u', hu, _⟩ := exists_append_of_not_mem h hc
    exact ⟨u', hu.symm⟩
  . intro h
    exact h.trans (List.prefix_append u _)

theorem isPrefixOf?_append_cons {fixed u v : Text} {c : Char} (hc : c ∉ fixed)
    : fixed.isPrefixOf? (u ++ c :: v) = (fixed.isPrefixOf? u).map (· ++ c :: v) := by
  apply Option.ext
  intro rest
  rw [isPrefixOf?_eq_some_iff, Option.map_eq_some_iff]
  constructor
  . intro h
    obtain ⟨u', hu, hrest⟩ := exists_append_of_not_mem h.symm hc
    exact ⟨u', isPrefixOf?_eq_some_iff.mpr hu, hrest.symm⟩
  . intro ⟨u', hu, hrest⟩
    rw [isPrefixOf?_eq_some_iff.mp hu, ← hrest, List.append_assoc]

theorem append_cons_inj {a b x y : Text} {c : Char} (h : a ++ c :: x = b ++ c :: y)
    (ha : c ∉ a) (hb : c ∉ b) : a = b ∧ x = y := by
  obtain ⟨b', hb', hx⟩ := exists_append_of_not_mem h ha
  cases b' with
  | nil =>
    rw [List.nil_append, List.cons.injEq] at hx
    refine ⟨?_, hx.2⟩
    rw [hb', List.append_nil]
  | cons d b' =>
    rw [List.cons_append, List.cons.injEq] at hx
    rw [hb', ← hx.1] at hb
    simp at hb

-- A run up to the first `c` either ends before the seam between `u` and `g` or takes in all of `g`,
-- which has no `c` either.
theorem run_ends_before_or_takes_in {run after u g v : Text} {c : Char}
    (h : run ++ c :: after = u ++ (g ++ c :: v)) (hrun : c ∉ run) (hg : c ∉ g)
    : (∃ u', u = run ++ c :: u' ∧ after = u' ++ (g ++ c :: v)) ∨ (run = u ++ g ∧ after = v) := by
  by_cases hu : c ∈ u
  . obtain ⟨u₁, u₂, hsplit, hu₁⟩ := List.eq_append_cons_of_mem hu
    rw [hsplit, List.append_assoc, List.cons_append] at h
    obtain ⟨hrun', hafter⟩ := append_cons_inj h hrun hu₁
    left
    refine ⟨u₂, ?_, hafter⟩
    rw [hrun', hsplit]
  . right
    rw [← List.append_assoc] at h
    apply append_cons_inj h hrun
    simp [hu, hg]

theorem suffix_append_cases {u a b : Text} (h : u <:+ a ++ b)
    : u <:+ b ∨ ∃ w, w <:+ a ∧ w ≠ [] ∧ u = w ++ b := by
  cases List.suffix_or_suffix_of_suffix h (List.suffix_append a b) with
  | inl hub => exact .inl hub
  | inr hbu =>
    obtain ⟨w, hw⟩ := hbu
    obtain ⟨t, ht⟩ := h
    cases w with
    | nil =>
      left
      have hbu : b = u := by simpa using hw
      exact hbu ▸ List.suffix_rfl
    | cons c w =>
      right
      refine ⟨c :: w, ⟨t, ?_⟩, by simp, hw.symm⟩
      rw [← hw, ← List.append_assoc] at ht
      exact List.append_cancel_right ht

theorem length_add_le_of_indexOf?_eq_some {pattern text : Text} {i : Nat}
    (h : indexOf? pattern text = some i) : i + pattern.length ≤ text.length := by
  induction text generalizing i with
  | nil =>
    unfold indexOf? at h
    split at h
    next hempty =>
      rw [List.isEmpty_iff] at hempty
      rw [Option.some.injEq] at h
      simp [← h, hempty]
    next => simp at h
  | cons c text ih =>
    unfold indexOf? at h
    split at h
    next hstarts =>
      have := (List.isPrefixOf_iff_prefix.mp hstarts).length_le
      simp only [Option.some.injEq] at h
      omega
    next =>
      obtain ⟨j, hj, rfl⟩ := Option.map_eq_some_iff.mp h
      have := ih hj
      rw [List.length_cons]
      omega

theorem indexOf?_eq_none_iff {pattern text : Text} : indexOf? pattern text = none ↔ ¬ pattern <:+: text := by
  induction text with
  | nil =>
    rw [List.infix_nil, indexOf?]
    cases pattern <;> simp
  | cons c text ih =>
    rw [List.infix_cons_iff, indexOf?]
    split
    next hstarts => simp [List.isPrefixOf_iff_prefix.mp hstarts]
    next hstarts =>
      rw [List.isPrefixOf_iff_prefix] at hstarts
      rw [Option.map_eq_none_iff, ih]
      simp [hstarts]

theorem exists_append_of_indexOf?_eq_some {pattern text : Text} {i : Nat}
    (h : indexOf? pattern text = some i)
    : ∃ before after, text = before ++ (pattern ++ after) ∧ before.length = i ∧
        ∀ u v, text = u ++ (pattern ++ v) → before.length ≤ u.length := by
  induction text generalizing i with
  | nil =>
    unfold indexOf? at h
    split at h
    next hempty =>
      rw [List.isEmpty_iff] at hempty
      rw [Option.some.injEq] at h
      exact ⟨[], [], by simp [hempty], by simpa using h, by simp⟩
    next => simp at h
  | cons c text ih =>
    unfold indexOf? at h
    split at h
    next hstarts =>
      obtain ⟨after, hafter⟩ := List.isPrefixOf_iff_prefix.mp hstarts
      rw [Option.some.injEq] at h
      exact ⟨[], after, hafter.symm, h, by simp⟩
    next hstarts =>
      obtain ⟨j, hj, rfl⟩ := Option.map_eq_some_iff.mp h
      obtain ⟨before, after, htext, hlength, hfirst⟩ := ih hj
      refine ⟨c :: before, after, by rw [htext, List.cons_append], by rw [List.length_cons, hlength], ?_⟩
      intro u v huv
      cases u with
      | nil => exact absurd (List.isPrefixOf_iff_prefix.mpr ⟨v, huv.symm⟩) hstarts
      | cons d u =>
        rw [List.cons_append, List.cons.injEq] at huv
        have := hfirst u v huv.2
        rw [List.length_cons, List.length_cons]
        omega

theorem indexOf?_append_self {pattern a b : Text}
    (h : ∀ u, u <:+ a → u ≠ [] → ¬ pattern <+: u ++ (pattern ++ b))
    : indexOf? pattern (a ++ (pattern ++ b)) = some a.length := by
  induction a with
  | nil =>
    rw [List.nil_append, List.length_nil]
    cases hcases : pattern ++ b with
    | nil =>
      rw [List.append_eq_nil_iff] at hcases
      simp [indexOf?, hcases.1]
    | cons c rest =>
      have : pattern.isPrefixOf (c :: rest) := by
        rw [List.isPrefixOf_iff_prefix, ← hcases]
        apply List.prefix_append
      simp [indexOf?, this]
  | cons c a ih =>
    have hhere : pattern.isPrefixOf (c :: (a ++ (pattern ++ b))) = false := by
      rw [Bool.eq_false_iff, Ne, List.isPrefixOf_iff_prefix, ← List.cons_append]
      exact h (c :: a) List.suffix_rfl (by simp)
    rw [List.cons_append, indexOf?, hhere, ih]
    . simp
    . intro u hu
      exact h u (hu.trans (List.suffix_cons c a))

-- A pattern whose first character does not come again in it overlaps none of its other occurrences.
theorem indexOf?_append_of_not_infix {a b tail : Text} {c : Char} (hc : c ∉ tail)
    (h : ¬ c :: tail <:+: a)
    : indexOf? (c :: tail) (a ++ (c :: tail ++ b)) = some a.length := by
  apply indexOf?_append_self
  intro u hu hne hstarts
  obtain ⟨d, u, rfl⟩ := List.exists_cons_of_ne_nil hne
  obtain ⟨after, hafter⟩ := hstarts
  rw [List.cons_append, List.cons_append, List.cons.injEq] at hafter
  obtain ⟨hcd, hafter⟩ := hafter
  obtain ⟨u', hu', _⟩ := exists_append_of_not_mem hafter hc
  apply h
  rw [← hcd, hu'] at hu
  exact List.IsInfix.trans ⟨[], u', by simp⟩ hu.isInfix

end Text
end Transclusion
