import Transclusion.Proofs.Directive.Quotes

/-!
This module contains how a directive falls into tokens. If its quotes are all closed it is cut at the
separators outside quotes, and the quotes are dropped; otherwise it is cut at all white space
(`tokenize_exact`).
-/

namespace Transclusion
namespace Parameters

def counted (before : Nat) (text : Text) : List (Char × Nat) :=
  text.zipIdx.map fun place => (place.1, before + (text.take place.2).count '"')

def isCut (place : Char × Nat) : Bool :=
  isSeparator place.1 && place.2 % 2 == 0

def quotedParts (before : Nat) (text : Text) : List Text :=
  ((counted before text).splitOnP isCut).map (·.map Prod.fst)

def withoutQuotes (text : Text) : Text :=
  text.filter (· ≠ '"')

def tokensOfParts (parts : List Text) : List Text :=
  (parts.filter (!·.isEmpty)).map withoutQuotes

theorem counted_cons (before : Nat) (c : Char) (text : Text)
    : counted before (c :: text) = (c, before) :: counted (before + [c].count '"') text := by
  unfold counted
  rw [List.zipIdx_cons, List.map_cons, Nat.zero_add, List.zipIdx_succ, List.map_map]
  congr 1
  apply List.map_congr_left
  intro place _
  rw [Function.comp_apply, List.take_succ_cons, ← List.singleton_append, List.count_append,
    Nat.add_assoc]

theorem quotedParts_nil (before : Nat) : quotedParts before [] = [[]] := by rfl

theorem quotedParts_cons (before : Nat) (c : Char) (text : Text)
    : quotedParts before (c :: text)
        =
      if isCut (c, before) then [] :: quotedParts (before + [c].count '"') text
      else (quotedParts (before + [c].count '"') text).modifyHead (c :: ·) := by
  unfold quotedParts
  rw [counted_cons, List.splitOnP_cons_eq_if_modifyHead]
  split
  . rfl
  . cases (counted (before + [c].count '"') text).splitOnP isCut <;> rfl

theorem tokensOfParts_cons (part : Text) (parts : List Text)
    : tokensOfParts (part :: parts)
        =
      if part.isEmpty then tokensOfParts parts else withoutQuotes part :: tokensOfParts parts := by
  unfold tokensOfParts
  rw [List.filter_cons]
  cases part <;> rfl

def begun (part : Text) : Option Text :=
  if part.isEmpty then none else some (withoutQuotes part).reverse

theorem getD_begun (part : Text) : (begun part).getD [] = (withoutQuotes part).reverse := by
  cases part <;> rfl

theorem begun_concat (part : Text) (c : Char)
    : begun (part ++ [c])
        =
      some (if c = '"' then (begun part).getD [] else c :: (begun part).getD []) := by
  rw [getD_begun, begun, if_neg (by simp), withoutQuotes, List.filter_append, List.reverse_append]
  by_cases hc : c = '"' <;> simp [hc, withoutQuotes]

theorem modifyHead_append (part : Text) (c : Char) (parts : List Text)
    : (parts.modifyHead (c :: ·)).modifyHead (part ++ ·) = parts.modifyHead (part ++ [c] ++ ·) := by
  cases parts <;> simp

-- The part begun so far is generalised; a quote is open if the number of quotes so far is odd.
theorem go_begun {before : Nat} {text : Text} (h : (before + text.count '"') % 2 = 0) (part : Text)
    : quotedTokens?.go (before % 2 == 1) (begun part) text
        =
      some (tokensOfParts ((quotedParts before text).modifyHead (part ++ ·))) := by
  induction text generalizing before part with
  | nil =>
    have hclosed : (before % 2 == 1) = false := by simpa using h
    rw [hclosed, quotedTokens?.go, quotedParts_nil, List.modifyHead_cons, List.append_nil,
      tokensOfParts_cons, begun]
    cases part <;> simp [tokensOfParts]
  | cons c text ih =>
    rw [← List.singleton_append, List.count_append, ← Nat.add_assoc] at h
    rw [go_cons, quotedParts_cons]
    by_cases hc : c = '"'
    . have hquotes : (!(before % 2 == 1)) = ((before + [c].count '"') % 2 == 1) := by
        rw [hc, List.count_singleton_self, Bool.eq_iff_iff, Bool.not_eq_true', beq_eq_false_iff_ne,
          beq_iff_eq]
        omega
      have hcut : isCut (c, before) = false := by
        rw [hc]
        rfl
      have hbegun := begun_concat part c
      rw [if_pos hc] at hbegun
      rw [if_pos hc, hcut, if_neg (by decide), hquotes, ← hbegun, ih h, modifyHead_append]
    . have hquotes : before + [c].count '"' = before := by
        rw [List.count_singleton, beq_false_of_ne hc, if_neg (by decide),
          Nat.add_zero]
      have hcut : (!(before % 2 == 1) && isSeparator c) = isCut (c, before) := by
        rw [isCut, Bool.and_comm]
        rcases Nat.mod_two_eq_zero_or_one before with hmod | hmod <;> rw [hmod] <;> rfl
      rw [hquotes] at h ⊢
      rw [if_neg hc, hcut]
      split
      next hcut' =>
        have hclosed : (before % 2 == 1) = false := by
          rw [← hcut, Bool.and_eq_true] at hcut'
          simpa using hcut'.1
        have hrest := ih h []
        rw [hclosed] at hrest
        change quotedTokens?.go false none text = _ at hrest
        rw [hrest, List.modifyHead_cons, List.append_nil, tokensOfParts_cons]
        cases part with
        | nil => cases quotedParts before text <;> rfl
        | cons d part => cases quotedParts before text <;> simp [begun]
      next =>
        have hbegun := begun_concat part c
        rw [if_neg hc] at hbegun
        rw [← hbegun, ih h, modifyHead_append]

theorem quotedTokens?_eq {text : Text} (h : Balanced text)
    : quotedTokens? text = some (tokensOfParts (quotedParts 0 text)) := by
  have hcount : (0 + text.count '"') % 2 = 0 := by rwa [Nat.zero_add]
  rw [quotedTokens?]
  apply (go_begun hcount []).trans
  cases quotedParts 0 text <;> rfl

theorem unquote_quoted (inner : Text) : unquote ('"' :: (inner ++ ['"'])) = inner := by
  unfold unquote
  rw [if_pos]
  . simp
  . rw [← List.cons_append, List.getLast?_concat]
    simp

theorem exists_of_unquote_ne {text : Text} (h : unquote text ≠ text)
    : ∃ inner, text = '"' :: (inner ++ ['"']) := by
  unfold unquote at h
  split at h
  next hends =>
    simp only [Bool.and_eq_true, decide_eq_true_eq, beq_iff_eq] at hends
    obtain ⟨⟨hlength, hhead⟩, hlast⟩ := hends
    cases text with
    | nil => contradiction
    | cons c text =>
      obtain rfl : c = '"' := by simpa using hhead
      have hne : text ≠ [] := by
        rintro rfl
        simp at hlength
      have hlast' : text.getLast hne = '"' := by
        rw [List.getLast?_cons_of_ne_nil hne, List.getLast?_eq_some_getLast hne] at hlast
        exact Option.some.inj hlast
      refine ⟨text.dropLast, ?_⟩
      rw [← hlast', List.dropLast_concat_getLast hne]
  next => contradiction

/-- With an even number of quotes, a directive's tokens are the parts between the separators that have
an even number of quotes before them, but for the empty ones, without the quotes; white space at the
ends does not count. With an odd number they are the parts between white space, and a pair of quotes
around a part is removed. -/
theorem tokenize_exact (text : Text)
    : tokenize text
          =
        (if text.count '"' % 2 = 0 then
          ((quotedParts 0 (Text.strip text)).filter (!·.isEmpty)).map (·.filter (· ≠ '"'))
        else (Text.words text).map unquote) ∧
        (text.count '"' % 2 = 0 → ∀ token ∈ tokenize text, '"' ∉ token) ∧
        (∀ inner, unquote ('"' :: (inner ++ ['"'])) = inner) ∧
        ∀ part, (∀ inner, part ≠ '"' :: (inner ++ ['"'])) → unquote part = part := by
  refine ⟨?_, ?_, unquote_quoted, ?_⟩
  . split
    next h =>
      have htokens := tokenize_of_balanced h
      rw [quotedTokens?_eq (balanced_strip.mpr h), Option.some.injEq] at htokens
      exact htokens.symm
    next h => exact tokenize_of_not_balanced h
  . intro h token htoken
    exact quote_not_mem_of_mem_tokenize h htoken
  . intro part hpart
    apply Decidable.byContradiction
    intro hne
    obtain ⟨inner, hinner⟩ := exists_of_unquote_ne hne
    exact hpart inner hinner

example : tokenize " x \"\" a\"b c\"=d " =
    (["x", "", "ab c=d"] : List Text) := by decide

end Parameters
end Transclusion
