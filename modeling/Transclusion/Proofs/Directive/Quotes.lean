import Transclusion.Proofs.Directive.Parameters

/-!
This module contains what quotes do to the tokens of a directive: a directive whose quotes are all
closed has no quote in any of its tokens (`quote_not_mem_of_mem_tokenize`), and all are closed exactly
if their number is even (`quotedTokens?_eq_none_iff`). Closed or not, the tokens are made of the
characters of the directive (`subset_of_mem_tokenize`).
-/

namespace Transclusion
namespace Text

theorem count_dropWhile {p : Char → Bool} {c : Char} (hc : p c = false) (text : Text)
    : (text.dropWhile p).count c = text.count c := by
  induction text with
  | nil => rfl
  | cons d text ih =>
    rw [List.dropWhile_cons]
    split
    next hd =>
      have hne : d ≠ c := by
        intro h
        rw [h, hc] at hd
        contradiction
      rw [ih, List.count_cons_of_ne hne]
    next => rfl

theorem count_strip {c : Char} (hc : isBlank c = false) (text : Text)
    : (strip text).count c = text.count c := by
  unfold strip trimBoth
  rw [List.count_reverse, count_dropWhile hc, List.count_reverse, count_dropWhile hc]

theorem strip_subset (text : Text) : strip text ⊆ text := by
  unfold strip trimBoth
  intro c hc
  rw [List.mem_reverse] at hc
  have hc := (List.dropWhile_sublist _).subset hc
  rw [List.mem_reverse] at hc
  exact (List.dropWhile_sublist _).subset hc

theorem subset_of_mem_splitOnP {p : Char → Bool} {text part : Text} (h : part ∈ text.splitOnP p)
    : part ⊆ text := by
  induction text generalizing part with
  | nil =>
    rw [List.splitOnP_nil, List.mem_singleton] at h
    rw [h]
    exact List.Subset.refl _
  | cons c text ih =>
    rw [List.splitOnP_cons_eq_if_modifyHead] at h
    split at h
    next =>
      rcases List.mem_cons.mp h with rfl | h
      . exact List.nil_subset _
      . exact List.subset_cons_of_subset c (ih h)
    next =>
      obtain ⟨first, parts, hparts⟩ := List.exists_cons_of_ne_nil (List.splitOnP_ne_nil p text)
      rw [hparts, List.modifyHead_cons] at h
      rw [hparts] at ih
      rcases List.mem_cons.mp h with rfl | h
      . exact List.cons_subset_cons c (ih (List.mem_cons_self ..))
      . exact List.subset_cons_of_subset c (ih (List.mem_cons_of_mem _ h))

end Text

namespace Parameters

theorem isBlank_of_isSeparator {c : Char} (h : isSeparator c = true) : Text.isBlank c = true := by
  simp only [isSeparator, Bool.or_eq_true, beq_iff_eq] at h
  rcases h with ((h | h) | h) | h <;> subst h <;> rfl

def Balanced (text : Text) : Prop :=
  text.count '"' % 2 = 0

theorem go_cons (quoted : Bool) (token : Option Text) (c : Char) (rest : Text)
    : quotedTokens?.go quoted token (c :: rest)
        =
      if c = '"' then quotedTokens?.go (!quoted) (some (token.getD [])) rest
      else if !quoted && isSeparator c then
        match token with
        | some token => (quotedTokens?.go false none rest).map (token.reverse :: ·)
        | none => quotedTokens?.go false none rest
      else quotedTokens?.go quoted (some (c :: token.getD [])) rest := by
  cases quoted <;> rfl

-- Nothing in the run closes what is open, or ends the token outside quotes.
theorem go_append_run {quoted : Bool} {run : Text}
    (h : ∀ c ∈ run, c ≠ '"' ∧ (quoted = false → isSeparator c = false)) (token rest : Text)
    : quotedTokens?.go quoted (some token) (run ++ rest)
        =
      quotedTokens?.go quoted (some (run.reverse ++ token)) rest := by
  induction run generalizing token with
  | nil => rfl
  | cons c run ih =>
    obtain ⟨hquote, hseparator⟩ := h c (by simp)
    have hgoes : (!quoted && isSeparator c) = false := by
      cases quoted with
      | true => rfl
      | false => simpa using hseparator rfl
    rw [List.cons_append, go_cons, if_neg hquote, hgoes, if_neg (by decide), Option.getD_some,
      ih fun d hd => h d (by simp [hd]), List.reverse_cons, List.append_assoc]
    rfl

theorem go_eq_none_iff {quoted : Bool} {token : Option Text} {text : Text}
    : quotedTokens?.go quoted token text = none ↔ (text.count '"' + quoted.toNat) % 2 = 1 := by
  induction text generalizing quoted token with
  | nil => cases quoted <;> simp [quotedTokens?.go]
  | cons c text ih =>
    rw [go_cons]
    by_cases hc : c = '"'
    . rw [if_pos hc, ih, hc, List.count_cons_self]
      cases quoted <;> simp only [Bool.not_true, Bool.not_false, Bool.toNat_true, Bool.toNat_false]
      all_goals omega
    . rw [if_neg hc, List.count_cons_of_ne hc]
      split
      next hseparator =>
        have hquoted : quoted = false := by simpa using (Bool.and_eq_true_iff.mp hseparator).1
        cases token with
        | none => rw [ih, hquoted]
        | some token => rw [Option.map_eq_none_iff, ih, hquoted]
      next => exact ih

theorem quotedTokens?_eq_none_iff {text : Text} : quotedTokens? text = none ↔ ¬ Balanced text := by
  unfold quotedTokens? Balanced
  rw [go_eq_none_iff, Bool.toNat_false]
  omega

-- The token begun so far is generalised: it grows by any character but a quote.
theorem forall_mem_of_go {P : Char → Prop} {quoted : Bool} {token : Option Text} {text : Text}
    {tokens : List Text} (htoken : ∀ c ∈ token.getD [], P c) (htext : ∀ c ∈ text, c ≠ '"' → P c)
    (h : quotedTokens?.go quoted token text = some tokens) : ∀ t ∈ tokens, ∀ c ∈ t, P c := by
  induction text generalizing quoted token tokens with
  | nil =>
    cases quoted with
    | true => simp [quotedTokens?.go] at h
    | false =>
      rw [quotedTokens?.go, Option.some.injEq] at h
      rw [← h]
      cases token with
      | none => simp
      | some token => simpa using htoken
  | cons c text ih =>
    rw [List.forall_mem_cons] at htext
    rw [go_cons] at h
    split at h
    next => exact ih (by rwa [Option.getD_some]) htext.2 h
    next hc =>
      split at h
      next =>
        cases token with
        | none => exact ih (by simp) htext.2 h
        | some token =>
          obtain ⟨later, hlater, rfl⟩ := Option.map_eq_some_iff.mp h
          rw [List.forall_mem_cons]
          refine ⟨?_, ih (by simp) htext.2 hlater⟩
          intro d hd
          exact htoken d (List.mem_reverse.mp hd)
      next =>
        apply ih _ htext.2 h
        rw [Option.getD_some, List.forall_mem_cons]
        exact ⟨htext.1 hc, htoken⟩

theorem balanced_strip {text : Text} : Balanced (Text.strip text) ↔ Balanced text := by
  unfold Balanced
  rw [Text.count_strip (by decide)]

theorem tokenize_of_balanced {text : Text} (h : Balanced text)
    : quotedTokens? (Text.strip text) = some (tokenize text) := by
  unfold tokenize
  cases htokens : quotedTokens? (Text.strip text) with
  | none => exact absurd (balanced_strip.mpr h) (quotedTokens?_eq_none_iff.mp htokens)
  | some tokens => rfl

theorem tokenize_of_not_balanced {text : Text} (h : ¬ Balanced text)
    : tokenize text = (Text.words text).map unquote := by
  unfold tokenize
  rw [quotedTokens?_eq_none_iff.mpr (mt balanced_strip.mp h)]

theorem quote_not_mem_of_mem_tokenize {text token : Text} (h : Balanced text)
    (htoken : token ∈ tokenize text) : '"' ∉ token := by
  intro hquote
  exact forall_mem_of_go (by simp) (fun _ _ hc => hc) (tokenize_of_balanced h) token htoken _ hquote rfl

theorem unquote_subset (text : Text) : unquote text ⊆ text := by
  unfold unquote
  split
  . exact List.Subset.trans (List.dropLast_subset _) (List.drop_subset 1 text)
  . exact List.Subset.refl _

theorem subset_of_mem_tokenize {text token : Text} (h : token ∈ tokenize text) : token ⊆ text := by
  unfold tokenize at h
  split at h
  next tokens htokens =>
    have hstrip := forall_mem_of_go (by simp) (fun _ hc _ => hc) htokens token h
    exact List.Subset.trans hstrip (Text.strip_subset text)
  next =>
    obtain ⟨word, hword, rfl⟩ := List.mem_map.mp h
    have hpart := (List.mem_filter.mp hword).1
    exact List.Subset.trans (unquote_subset word) (Text.subset_of_mem_splitOnP hpart)

theorem mem_of_valueAfter?_eq_some {keyword value : Text} {tokens : List Text}
    (h : valueAfter? keyword tokens = some value) : value ∈ tokens := by
  induction tokens with
  | nil => simp [valueAfter?] at h
  | cons token tokens ih =>
    rw [valueAfter?] at h
    split at h
    . exact List.mem_cons_of_mem _ (List.mem_of_head? h)
    . exact List.mem_cons_of_mem _ (ih h)

end Parameters
end Transclusion
