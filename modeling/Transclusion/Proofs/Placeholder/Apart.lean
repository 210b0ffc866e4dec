import Transclusion.Proofs.Placeholder.Scan

/-!
This module contains that the placeholders of one variable never overlap (`Own.append_eq_append`), and
what the two passes of its substitution therefore do to a text that begins with one of them, or with a
character at which none begins. A name with both a dollar sign and a closing brace is left out: with
such a name, one placeholder may begin inside another.
-/

namespace Transclusion
namespace Placeholder

def Own (words : List Text) (name placeholder : Text) : Prop :=
  placeholder = plain name ∨ ∃ word ∈ words, placeholder = transformed name word

variable {words : List Text} {name : Text}

theorem own_plain : Own words name (plain name) :=
  .inl rfl

theorem own_transformed {word : Text} (h : word ∈ words) : Own words name (transformed name word) :=
  .inr ⟨word, h, rfl⟩

theorem Own.exists_body (hwords : ∀ word ∈ words, Word word) {p : Text} (h : Own words name p)
    : ∃ body, p = '$' :: (body ++ ['}']) ∧ body.count '$' = name.count '$' ∧
        ('}' ∉ name → '}' ∉ body) := by
  rcases h with rfl | ⟨word, hword, rfl⟩
  . have hplain := plain_append name []
    rw [List.append_nil] at hplain
    refine ⟨'{' :: name, hplain, ?_, ?_⟩
    . rw [List.count_cons_of_ne (by decide)]
    . intro hname
      simp [hname]
  . have htransformed := transformed_append name word []
    rw [List.append_nil] at htransformed
    refine ⟨'{' :: (name ++ '.' :: word), ?_, ?_, ?_⟩
    . rw [htransformed]
      simp
    . have hdollar := List.count_eq_zero_of_not_mem (hwords word hword).dollar_not_mem
      simp [hdollar]
    . intro hname
      have := (hwords word hword).brace_not_mem
      simp [*]

-- A placeholder has its first dollar sign at its front and its last brace at its end. Where the name
-- has no dollar sign, none can begin inside another; where it has no brace, it would have to be the end
-- of the other one, with one dollar sign less.
theorem Own.not_inside (hname : '$' ∉ name ∨ '}' ∉ name) (hwords : ∀ word ∈ words, Word word)
    {p q w u s : Text} (hp : Own words name p) (hq : Own words name q) (hsplit : q = w ++ u) (hw : w ≠ [])
    (hu : u ≠ []) : ¬ p <+: u ++ s := by
  intro ⟨rest, h⟩
  obtain ⟨body, rfl, hcount, hbrace⟩ := hp.exists_body hwords
  obtain ⟨body', rfl, hcount', hbrace'⟩ := hq.exists_body hwords
  obtain ⟨c, w, rfl⟩ := List.exists_cons_of_ne_nil hw
  rw [List.cons_append, List.cons.injEq] at hsplit
  rcases hname with hname | hname
  . obtain ⟨d, u, rfl⟩ := List.exists_cons_of_ne_nil hu
    rw [List.cons_append, List.cons_append, List.cons.injEq] at h
    have hinner : '$' ∈ body' ++ ['}'] := by
      rw [hsplit.2, ← h.1]
      simp
    have hnone : '$' ∉ body' := by
      rw [← List.count_eq_zero, hcount', List.count_eq_zero]
      exact hname
    simp [hnone] at hinner
  . obtain ⟨v, e, rfl⟩ : ∃ v e, u = v ++ [e] := ⟨_, _, (List.dropLast_concat_getLast hu).symm⟩
    rw [← List.append_assoc] at hsplit
    obtain ⟨hfront, hlast⟩ := List.append_inj' hsplit.2 rfl
    obtain rfl : '}' = e := by simpa using hlast
    have hv : '}' ∉ v := by
      intro hmem
      apply hbrace' hname
      rw [hfront]
      exact List.mem_append_right w hmem
    have hbody : '}' ∉ '$' :: body := by
      simp [hbrace hname]
    have hfull : ('$' :: body) ++ '}' :: rest = v ++ '}' :: s := by
      simpa using h
    rw [hfront, ← (Text.append_cons_inj hfull hbody hv).1, List.count_append, List.count_cons_self] at hcount'
    omega

theorem plain_append_ne_transformed_append (name word r s : Text)
    : plain name ++ r ≠ transformed name word ++ s := by
  intro h
  rw [plain_append, transformed_append] at h
  simp at h

theorem eq_of_transformed_append_eq {word other r s : Text} (hword : Word word) (hother : Word other)
    (h : transformed name word ++ r = transformed name other ++ s) : word = other := by
  rw [transformed_append, transformed_append] at h
  simp only [List.cons.injEq, true_and, List.append_cancel_left_eq] at h
  exact (Text.append_cons_inj h hword.brace_not_mem hother.brace_not_mem).1

theorem Own.eq_of_append_eq (hwords : ∀ word ∈ words, Word word) {p q r s : Text} (hp : Own words name p)
    (hq : Own words name q) (h : p ++ r = q ++ s) : p = q := by
  rcases hp with rfl | ⟨word, hword, rfl⟩
  . rcases hq with rfl | ⟨word', _, rfl⟩
    . rfl
    . exact absurd h (plain_append_ne_transformed_append _ _ _ _)
  . rcases hq with rfl | ⟨word', hword', rfl⟩
    . exact absurd h.symm (plain_append_ne_transformed_append _ _ _ _)
    . rw [eq_of_transformed_append_eq (hwords word hword) (hwords word' hword') h]

theorem Own.ne_nil (hwords : ∀ word ∈ words, Word word) {p : Text} (h : Own words name p) : p ≠ [] := by
  obtain ⟨_, rfl, _⟩ := h.exists_body hwords
  exact List.cons_ne_nil _ _

theorem Own.append_eq_append (hname : '$' ∉ name ∨ '}' ∉ name) (hwords : ∀ word ∈ words, Word word)
    {p q s x y : Text} (hp : Own words name p) (hq : Own words name q) (h : p ++ s = x ++ (q ++ y))
    : (x = [] ∧ p = q ∧ s = y) ∨ ∃ x', x = p ++ x' ∧ s = x' ++ (q ++ y) := by
  rcases Text.append_eq_append_cases h with hbehind | ⟨u, hu, hsplit, hinside⟩
  . exact .inr hbehind
  . by_cases hx : x = []
    . rw [hx, List.nil_append] at h
      have hpq := hp.eq_of_append_eq hwords hq h
      rw [hpq] at h
      exact .inl ⟨hx, hpq, List.append_cancel_left h⟩
    . exact absurd ⟨y, hinside⟩ (hq.not_inside hname hwords hp hsplit hx hu)

-- A text begins with a placeholder of the variable, or with a character at which none begins.
theorem parts_induction (words : List Text) (name : Text) {motive : Text → Prop} (hnil : motive [])
    (hplain : ∀ s, motive s → motive (plain name ++ s))
    (htransformed : ∀ word ∈ words, ∀ s, motive s → motive (transformed name word ++ s))
    (hchar : ∀ c s, (∀ p, Own words name p → ¬ p <+: c :: s) → motive s → motive (c :: s)) (text : Text)
    : motive text := by
  induction hlength : text.length using Nat.strongRecOn generalizing text with
  | _ length ih =>
    have hshorter : ∀ p s, p ≠ [] → text = p ++ s → motive s := by
      intro p s hp htext
      have := List.length_pos_iff.mpr hp
      have hsum := congrArg List.length htext
      rw [List.length_append] at hsum
      exact ih s.length (by omega) s rfl
    cases text with
    | nil => exact hnil
    | cons c s =>
      by_cases hown : ∃ p, Own words name p ∧ p <+: c :: s
      . obtain ⟨p, hp, rest, htext⟩ := hown
        rw [← htext]
        rcases hp with rfl | ⟨word, hword, rfl⟩
        . exact hplain rest (hshorter _ rest (plain_ne_nil name) htext.symm)
        . exact htransformed word hword rest (hshorter _ rest (transformed_ne_nil name word) htext.symm)
      . apply hchar c s
        . intro p hp hstarts
          exact hown ⟨p, hp, hstarts⟩
        . exact hshorter [c] s (List.cons_ne_nil _ _) rfl

variable {transforms : Transforms} {value : Text}

theorem replaceAll_transformed_append (hname : '$' ∉ name ∨ '}' ∉ name) {word : Text} (hword : Word word)
    (s : Text)
    : Text.replaceAll (plain name) value (transformed name word ++ s)
        =
      transformed name word ++ Text.replaceAll (plain name) value s := by
  have hwords : ∀ other ∈ [word], Word other := by simpa using hword
  have hown : Own [word] name (transformed name word) := own_transformed (by simp)
  apply Text.replaceAll_append_of_not_prefix (plain_ne_nil name)
  intro u ⟨w, hsplit⟩ hu ⟨rest, h⟩
  have hfull : transformed name word ++ s = w ++ (plain name ++ rest) := by
    rw [h, ← hsplit, List.append_assoc]
  rcases hown.append_eq_append hname hwords own_plain hfull with ⟨_, hplain, _⟩ | ⟨x, hx, _⟩
  . apply plain_append_ne_transformed_append name word [] []
    rw [hplain]
  . have := congrArg List.length hsplit
    have := List.length_pos_iff.mpr hu
    rw [hx] at *
    simp only [List.length_append] at *
    omega

def Begins (words : List Text) (name x s : Text) : Prop :=
  ∃ word ∈ words, ∃ u, u <:+ x ∧ u ≠ [] ∧ transformed name word <+: u ++ s

theorem begins_cons_iff {c : Char} {x s : Text}
    : Begins words name (c :: x) s ↔
        (∃ word ∈ words, transformed name word <+: c :: (x ++ s)) ∨ Begins words name x s := by
  constructor
  . intro ⟨word, hword, u, hu, hne, hstarts⟩
    rcases List.suffix_cons_iff.mp hu with rfl | hu
    . exact .inl ⟨word, hword, hstarts⟩
    . exact .inr ⟨word, hword, u, hu, hne, hstarts⟩
  . rintro (⟨word, hword, hstarts⟩ | ⟨word, hword, u, hu, hne, hstarts⟩)
    . exact ⟨word, hword, c :: x, List.suffix_rfl, List.cons_ne_nil _ _, hstarts⟩
    . exact ⟨word, hword, u, hu.trans (List.suffix_cons ..), hne, hstarts⟩

theorem not_begins_nil {s : Text} : ¬ Begins words name [] s := by
  intro ⟨_, _, u, hu, hne, _⟩
  exact hne (List.suffix_nil.mp hu)

theorem shownFor_of_not_mem {word : Text} (h : word ∉ transforms.keys)
    : shownFor transforms name value word = transformed name word := by
  have hnone : transforms.get? word = none := by
    apply List.lookup_eq_none_iff.mpr
    intro entry hentry
    rw [bne_iff_ne]
    rintro rfl
    exact h (List.mem_map_of_mem hentry)
  rw [shownFor, hnone]

-- A placeholder whose transform is not registered is skipped as a whole; no other one begins in it.
theorem substituteTransformed_cons_of_not_prefix (hname : '$' ∉ name ∨ '}' ∉ name) {c : Char} {s : Text}
    (h : ∀ word ∈ transforms.keys, ¬ transformed name word <+: c :: s)
    : substituteTransformed transforms name value (c :: s)
        =
      c :: substituteTransformed transforms name value s := by
  cases hat : transformAt? name (c :: s) with
  | none => exact substituteTransformed_cons_of_none hat
  | some word =>
    obtain ⟨hword, rest, htext⟩ := transformAt?_eq_some_iff.mp hat
    have hunregistered : word ∉ transforms.keys := fun hmem => h word hmem ⟨rest, htext.symm⟩
    obtain ⟨d, w, hcons⟩ := List.exists_cons_of_ne_nil (transformed_ne_nil name word)
    have hinner : ∀ u, u <:+ w → u ≠ [] → transformAt? name (u ++ rest) = none := by
      intro u ⟨v, hsplit⟩ hu
      cases hat' : transformAt? name (u ++ rest) with
      | none => rfl
      | some other =>
        obtain ⟨hother, more, hmore⟩ := transformAt?_eq_some_iff.mp hat'
        have hwords : ∀ word' ∈ [word, other], Word word' := by simp [hword, hother]
        have hinside : transformed name word = d :: v ++ u := by
          rw [hcons, ← hsplit, List.cons_append]
        exact absurd ⟨more, hmore.symm⟩ ((own_transformed (by simp)).not_inside hname hwords
          (own_transformed (by simp)) hinside (List.cons_ne_nil _ _) hu)
    rw [htext, substituteTransformed_append hword, shownFor_of_not_mem hunregistered]
    rw [hcons, List.cons_append, List.cons.injEq] at htext
    rw [htext.2, substituteTransformed_append_of_none hinner, hcons, htext.1, List.cons_append]

theorem substituteTransformed_append_of_not_begins (hname : '$' ∉ name ∨ '}' ∉ name) {x s : Text}
    (h : ¬ Begins transforms.keys name x s)
    : substituteTransformed transforms name value (x ++ s)
        =
      x ++ substituteTransformed transforms name value s := by
  induction x with
  | nil => rfl
  | cons c x ih =>
    rw [begins_cons_iff, not_or] at h
    rw [List.cons_append, substituteTransformed_cons_of_not_prefix hname, ih h.2, List.cons_append]
    intro word hword hstarts
    exact h.1 ⟨word, hword, hstarts⟩

end Placeholder
end Transclusion
