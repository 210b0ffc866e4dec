import Transclusion.Proofs.Directive.Quotes
import Transclusion.Proofs.Text.Trim

/-!
This module contains what stands behind the keyword of a directive. The keyword is the first token, and
there is another one exactly if something but white space comes after it (`exists_tokenize_eq`); that one
is the name (`name_parse`). None of this depends on whether the quotes are closed.
-/

namespace Transclusion
namespace Text

theorem words_append_cons {c : Char} (hc : isBlank c = true) (a b : Text)
    : words (a ++ c :: b) = words a ++ words b := by
  unfold words
  rw [List.splitOnP_append_cons a b hc, List.filter_append]

theorem words_eq_nil_iff {text : Text} : words text = [] ↔ ∀ c ∈ text, isBlank c = true := by
  have hnil : words [] = [] := by simp [words, List.splitOnP_nil]
  induction text with
  | nil => simp [hnil]
  | cons c text ih =>
    rw [List.forall_mem_cons]
    by_cases hc : isBlank c = true
    . have hwords := words_append_cons hc [] text
      rw [List.nil_append, hnil, List.nil_append] at hwords
      rw [hwords, and_iff_right hc]
      exact ih
    . obtain ⟨first, parts, hparts⟩ := List.exists_cons_of_ne_nil (List.splitOnP_ne_nil isBlank text)
      unfold words
      rw [List.splitOnP_cons_eq_if_modifyHead, if_neg hc, hparts]
      simp [hc]

theorem exists_strip_append {a : Char} (ha : isBlank a = false) {rest : Text}
    (h : ¬ ∀ c ∈ rest, isBlank c = true) (lead : Text)
    : ∃ kept, strip (a :: lead ++ rest) = a :: lead ++ kept ∧ ¬ ∀ c ∈ kept, isBlank c = true := by
  obtain ⟨before, after, htext, hbefore, hafter⟩ := exists_eq_trimBoth isBlank (a :: lead ++ rest)
  change _ = before ++ strip (a :: lead ++ rest) ++ after at htext
  obtain rfl : before = [] := by
    cases before with
    | nil => rfl
    | cons b before =>
      rw [List.cons_append, List.cons_append, List.cons_append, List.cons.injEq] at htext
      rw [htext.1, hbefore b List.mem_cons_self] at ha
      cases ha
  rw [List.nil_append] at htext
  rcases List.append_eq_append_iff.mp htext with ⟨kept, hstrip, hrest⟩ | ⟨w, _, hw⟩
  . refine ⟨kept, hstrip, ?_⟩
    intro hkept
    apply h
    rw [hrest, List.forall_mem_append]
    exact ⟨hkept, hafter⟩
  . exact absurd (fun c hc => hafter c (hw ▸ List.mem_append_right w hc)) h

end Text

namespace Parameters

def keyword : Text := "include"

theorem includeLead_append (inner : Text) : includeLead ++ inner = keyword ++ ' ' :: inner := by rfl

-- A token that has been begun, or a character that begins one, comes to a token.
theorem ne_nil_of_go {quoted : Bool} {token : Option Text} {text : Text} {tokens : List Text}
    (h : quotedTokens?.go quoted token text = some tokens)
    (hmore : token.isSome = true ∨ ¬ ∀ c ∈ text, isSeparator c = true) : tokens ≠ [] := by
  induction text generalizing quoted token with
  | nil =>
    cases quoted with
    | true => simp [quotedTokens?.go] at h
    | false =>
      rw [quotedTokens?.go, Option.some.injEq] at h
      obtain ⟨token, rfl⟩ := Option.isSome_iff_exists.mp (hmore.resolve_right (by simp))
      rw [← h]
      exact List.cons_ne_nil _ _
  | cons c text ih =>
    rw [go_cons] at h
    split at h
    next => exact ih h (.inl rfl)
    next =>
      split at h
      next hseparator =>
        cases token with
        | none =>
          rw [List.forall_mem_cons, and_iff_right (Bool.and_eq_true_iff.mp hseparator).2] at hmore
          exact ih h hmore
        | some token =>
          obtain ⟨later, _, rfl⟩ := Option.map_eq_some_iff.mp h
          exact List.cons_ne_nil _ _
      next => exact ih h (.inl rfl)

theorem quotedTokens?_includeLead (inner : Text)
    : quotedTokens? (includeLead ++ inner)
        =
      (quotedTokens?.go false none inner).map (keyword :: ·) := by rfl

theorem tokenize_of_isBlank {inner : Text} (h : ∀ c ∈ inner, Text.isBlank c = true)
    : tokenize (includeLead ++ inner) = [keyword] := by
  have hblank : ∀ c ∈ ' ' :: inner, Text.isBlank c = true := by
    rw [List.forall_mem_cons]
    exact ⟨rfl, h⟩
  have hnone : ∀ c ∈ ([] : Text), Text.isBlank c = true := List.forall_mem_nil _
  have hstrip : Text.strip (keyword ++ ' ' :: inner) = keyword :=
    Text.trimBoth_append hnone hblank keyword
  rw [includeLead_append, tokenize, hstrip]
  rfl

theorem exists_tokenize_eq (inner : Text)
    : ∃ later, tokenize (includeLead ++ inner) = keyword :: later ∧
        (later = [] ↔ ∀ c ∈ inner, Text.isBlank c = true) := by
  by_cases hinner : ∀ c ∈ inner, Text.isBlank c = true
  . exact ⟨[], tokenize_of_isBlank hinner, by simpa using hinner⟩
  . by_cases hbalanced : Balanced (includeLead ++ inner)
    . obtain ⟨kept, hstrip, hkept⟩ := Text.exists_strip_append (a := 'i') rfl hinner includeLead.tail
      have htokens := tokenize_of_balanced hbalanced
      change Text.strip (includeLead ++ inner) = includeLead ++ kept at hstrip
      rw [hstrip, quotedTokens?_includeLead] at htokens
      obtain ⟨later, hlater, heq⟩ := Option.map_eq_some_iff.mp htokens
      have hne : later ≠ [] := by
        apply ne_nil_of_go hlater
        right
        intro hseparators
        exact hkept fun c hc => isBlank_of_isSeparator (hseparators c hc)
      exact ⟨later, heq.symm, iff_of_false hne hinner⟩
    . have hkeyword : Text.words keyword = [keyword] := by decide
      refine ⟨(Text.words inner).map unquote, ?_, ?_⟩
      . rw [tokenize_of_not_balanced hbalanced, includeLead_append, Text.words_append_cons rfl, hkeyword]
        rfl
      . rw [List.map_eq_nil_iff, Text.words_eq_nil_iff]

theorem name_parse (inner : Text)
    : ∃ later, tokenize (includeLead ++ inner) = keyword :: later ∧
        (parse (includeLead ++ inner)).name = later.head? ∧
        ((parse (includeLead ++ inner)).name = none ↔ ∀ c ∈ inner, Text.isBlank c = true) := by
  obtain ⟨later, htokens, hblank⟩ := exists_tokenize_eq inner
  have hname : (parse (includeLead ++ inner)).name = later.head? := by
    rw [parse, htokens]
    rfl
  refine ⟨later, htokens, hname, ?_⟩
  rw [hname, List.head?_eq_none_iff, hblank]

example : (parse "include \"a b ").name = some ['"', 'a'] := by decide

end Parameters
end Transclusion
