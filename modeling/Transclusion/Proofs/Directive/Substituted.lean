import Mathlib.Data.List.DropRight
import Transclusion.Proofs.Directive.Quotes
import Transclusion.Proofs.Placeholder.Simultaneous

/-!
This module contains the tokens of a directive after a scope was substituted into it. If placeholders
stand in quotes only, and the values have no quotes, each token is substituted for itself
(`tokenize_applyScope`): the values can neither cut a token nor join two.
-/

namespace Transclusion
namespace Parameters

open Placeholder

/-- Every dollar sign begins a placeholder, and this lies in quotes. `quoted` says whether a quote is
open where the text begins. -/
def Sheltered (quoted : Bool) (text : Text) : Prop :=
  ∀ before after, text = before ++ '$' :: after →
    (before.count '"' + quoted.toNat) % 2 = 1 ∧
      ∃ body rest, after = '{' :: (body ++ '}' :: rest) ∧ Bare body ∧ '"' ∉ body

def openAfter (quoted : Bool) (c : Char) : Bool :=
  if c = '"' then !quoted else quoted

def Enclosed : Bool → List Piece → Prop
  | quoted, [] => quoted = false
  | quoted, .char c :: ps => Enclosed (openAfter quoted c) ps
  | quoted, .placeholder body :: ps => quoted = true ∧ '"' ∉ body ∧ Enclosed quoted ps

instance : (quoted : Bool) → (ps : List Piece) → Decidable (Enclosed quoted ps)
  | quoted, [] => inferInstanceAs (Decidable (quoted = false))
  | quoted, .char c :: ps => instDecidableEnclosed (openAfter quoted c) ps
  | quoted, .placeholder body :: ps =>
    let _ := instDecidableEnclosed quoted ps
    inferInstanceAs (Decidable (quoted = true ∧ '"' ∉ body ∧ Enclosed quoted ps))

theorem Sheltered.regular {quoted : Bool} {text : Text} (h : Sheltered quoted text) : Regular text := by
  intro before after htext
  obtain ⟨_, body, rest, hafter, hbody, _⟩ := h before after htext
  exact ⟨body, rest, hafter, hbody⟩

theorem count_cons_parity (quoted : Bool) (c : Char) (t : Text)
    : ((c :: t).count '"' + quoted.toNat) % 2 = (t.count '"' + (openAfter quoted c).toNat) % 2 := by
  unfold openAfter
  by_cases hc : c = '"'
  . rw [hc, List.count_cons_self, if_pos rfl]
    cases quoted <;> simp only [Bool.not_true, Bool.not_false, Bool.toNat_true, Bool.toNat_false]
    all_goals omega
  . rw [List.count_cons_of_ne hc, if_neg hc]

theorem count_plain_append {body : Text} (hbody : '"' ∉ body) (t : Text)
    : (plain body ++ t).count '"' = t.count '"' := by
  rw [plain_append]
  simp [List.count_eq_zero_of_not_mem hbody]

theorem sheltered_cons {quoted : Bool} {c : Char} {t : Text} (hc : c ≠ '$')
    : Sheltered quoted (c :: t) ↔ Sheltered (openAfter quoted c) t := by
  constructor
  . intro h before after ht
    obtain ⟨hcount, hplaceholder⟩ := h (c :: before) after (by rw [ht, List.cons_append])
    rw [count_cons_parity] at hcount
    exact ⟨hcount, hplaceholder⟩
  . intro h before after ht
    cases before with
    | nil =>
      rw [List.nil_append, List.cons.injEq] at ht
      exact absurd ht.1 hc
    | cons d before =>
      rw [List.cons_append, List.cons.injEq] at ht
      obtain ⟨hcount, hplaceholder⟩ := h before after ht.2
      rw [← count_cons_parity, ht.1] at hcount
      exact ⟨hcount, hplaceholder⟩

theorem sheltered_plain_append {quoted : Bool} {body t : Text} (hbody : Bare body)
    : Sheltered quoted (plain body ++ t) ↔ quoted = true ∧ '"' ∉ body ∧ Sheltered quoted t := by
  constructor
  . intro h
    obtain ⟨hcount, body', rest, hafter, hbody', hquote⟩ := h [] _ (plain_append body t)
    rw [List.cons.injEq] at hafter
    obtain ⟨rfl, _⟩ := Text.append_cons_inj hafter.2 hbody.2.2 hbody'.2.2
    refine ⟨?_, hquote, ?_⟩
    . cases quoted with
      | true => rfl
      | false => simp at hcount
    . intro before after ht
      have := h (plain body ++ before) after (by rw [ht, List.append_assoc])
      rwa [count_plain_append hquote] at this
  . intro ⟨hquoted, hquote, h⟩ before after ht
    have hplain := plain_append body t
    cases before with
    | nil =>
      rw [ht, List.nil_append, List.cons.injEq] at hplain
      refine ⟨?_, body, t, hplain.2, hbody, hquote⟩
      rw [hquoted]
      rfl
    | cons d before =>
      rw [ht, List.cons_append, List.cons.injEq] at hplain
      have hfree : '$' ∉ '{' :: (body ++ ['}']) := by
        simp [hbody.1]
      have hsplit : '{' :: (body ++ ['}']) ++ t = before ++ '$' :: after := by
        rw [hplain.2]
        simp
      obtain ⟨later, hbefore, hlater⟩ := Text.exists_append_of_not_mem hsplit hfree
      have hfront : d :: before = plain body ++ later := by
        rw [hplain.1, hbefore, plain_append]
        simp
      rw [hfront, count_plain_append hquote]
      exact h later after hlater

theorem enclosed_iff {quoted : Bool} {ps : List Piece} (hps : ∀ p ∈ ps, p.WellFormed)
    : Enclosed quoted ps ↔
        ((assemble ps).count '"' + quoted.toNat) % 2 = 0 ∧ Sheltered quoted (assemble ps) := by
  induction ps generalizing quoted with
  | nil =>
    have hsheltered : Sheltered quoted (assemble []) := by
      intro before after h
      simp [assemble] at h
    rw [Enclosed]
    cases quoted with
    | true => exact ⟨fun h => by contradiction, fun h => by simp [assemble] at h⟩
    | false => exact ⟨fun _ => ⟨rfl, hsheltered⟩, fun _ => rfl⟩
  | cons p ps ih =>
    rw [List.forall_mem_cons] at hps
    cases p with
    | char c =>
      rw [Enclosed, ih hps.2, assemble_cons, Piece.text, List.singleton_append, sheltered_cons hps.1,
        count_cons_parity]
    | placeholder body =>
      rw [Enclosed, ih hps.2, assemble_cons, Piece.text, sheltered_plain_append hps.1]
      constructor
      . rintro ⟨hquoted, hquote, hcount, h⟩
        rw [count_plain_append hquote]
        exact ⟨hcount, hquoted, hquote, h⟩
      . rintro ⟨hcount, hquoted, hquote, h⟩
        rw [count_plain_append hquote] at hcount
        exact ⟨hquoted, hquote, hcount, h⟩

theorem flatMap_shown_char (value? : Text → Option Text) (c : Char) (ps : List Piece)
    : (Piece.char c :: ps).flatMap (Piece.shown value?) = c :: ps.flatMap (Piece.shown value?) := by
  rfl

-- In front of the first quote there is no placeholder.
theorem exists_dropWhile_isBlank {ps : List Piece} (h : Enclosed false ps)
    : ∃ qs, qs <:+ ps ∧ Enclosed false qs ∧ ∀ value? : Text → Option Text,
        (ps.flatMap (Piece.shown value?)).dropWhile Text.isBlank = qs.flatMap (Piece.shown value?) := by
  induction ps with
  | nil => exact ⟨[], List.suffix_rfl, h, fun _ => rfl⟩
  | cons p ps ih =>
    cases p with
    | placeholder body => simp [Enclosed] at h
    | char c =>
      by_cases hc : Text.isBlank c = true
      . have hquote : c ≠ '"' := by
          rintro rfl
          contradiction
        rw [Enclosed, openAfter, if_neg hquote] at h
        obtain ⟨qs, hqs, hclosed, hdrop⟩ := ih h
        refine ⟨qs, hqs.trans (List.suffix_cons ..), hclosed, ?_⟩
        intro value?
        rw [flatMap_shown_char, List.dropWhile_cons_of_pos hc, hdrop]
      . refine ⟨.char c :: ps, List.suffix_rfl, h, ?_⟩
        intro value?
        exact List.dropWhile_cons_of_neg hc

theorem enclosed_concat_char {quoted : Bool} {ps : List Piece} {c : Char} (hc : c ≠ '"')
    : Enclosed quoted (ps ++ [.char c]) ↔ Enclosed quoted ps := by
  induction ps generalizing quoted with
  | nil => simp [Enclosed, openAfter, hc]
  | cons p ps ih => cases p <;> simp [Enclosed, ih]

theorem not_enclosed_concat_placeholder {quoted : Bool} {ps : List Piece} {body : Text}
    : ¬ Enclosed quoted (ps ++ [.placeholder body]) := by
  induction ps generalizing quoted with
  | nil => cases quoted <;> simp [Enclosed]
  | cons p ps ih => cases p <;> simp [Enclosed, ih]

-- Behind the last quote there is none either.
theorem exists_rdropWhile_isBlank {ps : List Piece} (h : Enclosed false ps)
    : ∃ qs, qs <+: ps ∧ Enclosed false qs ∧ ∀ value? : Text → Option Text,
        (ps.flatMap (Piece.shown value?)).rdropWhile Text.isBlank = qs.flatMap (Piece.shown value?) := by
  induction ps using List.reverseRecOn with
  | nil => exact ⟨[], List.prefix_rfl, h, fun _ => rfl⟩
  | append_singleton ps p ih =>
    cases p with
    | placeholder body => exact absurd h not_enclosed_concat_placeholder
    | char c =>
      have hshown : ∀ value? : Text → Option Text, (ps ++ [Piece.char c]).flatMap (Piece.shown value?)
          = ps.flatMap (Piece.shown value?) ++ [c] := by
        intro value?
        rw [List.flatMap_append, List.flatMap_singleton]
        rfl
      by_cases hc : Text.isBlank c = true
      . have hquote : c ≠ '"' := by
          rintro rfl
          contradiction
        obtain ⟨qs, hqs, hclosed, hdrop⟩ := ih ((enclosed_concat_char hquote).mp h)
        refine ⟨qs, hqs.trans (List.prefix_append ..), hclosed, ?_⟩
        intro value?
        rw [hshown, List.rdropWhile_concat_pos _ _ _ hc, hdrop]
      . refine ⟨ps ++ [.char c], List.prefix_rfl, h, ?_⟩
        intro value?
        rw [hshown, List.rdropWhile_concat_neg _ _ _ hc]

theorem exists_strip {ps : List Piece} (h : Enclosed false ps)
    : ∃ qs, qs ⊆ ps ∧ Enclosed false qs ∧ ∀ value? : Text → Option Text,
        Text.strip (ps.flatMap (Piece.shown value?)) = qs.flatMap (Piece.shown value?) := by
  obtain ⟨qs, hqs, hclosed, hdrop⟩ := exists_dropWhile_isBlank h
  obtain ⟨rs, hrs, hclosed', hrdrop⟩ := exists_rdropWhile_isBlank hclosed
  refine ⟨rs, List.Subset.trans hrs.subset hqs.subset, hclosed', ?_⟩
  intro value?
  rw [← hrdrop, ← hdrop]
  rfl

theorem quote_not_mem_shown {value? : Text → Option Text}
    (hvalue : ∀ body value, value? body = some value → '"' ∉ value) {body : Text} (hbody : '"' ∉ body)
    : '"' ∉ (Piece.placeholder body).shown value? := by
  rw [Piece.shown]
  cases h : value? body with
  | some value => exact hvalue body value h
  | none =>
    have hplain := plain_append body []
    rw [List.append_nil] at hplain
    rw [Option.getD_none, hplain]
    simp [hbody]

def pieceTokens : Bool → Option (List Piece) → List Piece → List (List Piece)
  | _, begun, [] => begun.toList
  | quoted, begun, .placeholder body :: ps =>
    pieceTokens quoted (some (begun.getD [] ++ [.placeholder body])) ps
  | quoted, begun, .char c :: ps =>
    if c = '"' then pieceTokens (!quoted) (some (begun.getD [])) ps
    else if !quoted && isSeparator c then begun.toList ++ pieceTokens false none ps
    else pieceTokens quoted (some (begun.getD [] ++ [.char c])) ps

theorem subset_of_mem_pieceTokens {quoted : Bool} {begun : Option (List Piece)} {ps token : List Piece}
    (h : token ∈ pieceTokens quoted begun ps) : token ⊆ begun.getD [] ++ ps := by
  have hwider : ∀ (p : Piece) (front ps : List Piece), front ++ ps ⊆ front ++ p :: ps :=
    fun p front ps => ((List.sublist_cons_self p ps).append_left front).subset
  induction quoted, begun, ps using pieceTokens.induct with
  | case1 quoted begun =>
    rw [pieceTokens, Option.mem_toList] at h
    rw [h]
    exact List.subset_append_left ..
  | case2 quoted begun body ps ih =>
    rw [pieceTokens] at h
    simpa using ih h
  | case3 quoted begun ps ih =>
    rw [pieceTokens, if_pos rfl] at h
    exact List.Subset.trans (ih h) (hwider ..)
  | case4 quoted begun c ps hc hseparator ih =>
    rw [pieceTokens, if_neg hc, if_pos hseparator] at h
    rcases List.mem_append.mp h with h | h
    . rw [Option.mem_toList] at h
      rw [h]
      exact List.subset_append_left ..
    . exact List.Subset.trans (ih h) (List.subset_append_of_subset_right _ (List.subset_cons_self ..))
  | case5 quoted begun c ps hc hseparator ih =>
    rw [pieceTokens, if_neg hc, if_neg hseparator] at h
    simpa using ih h

-- In quotes a token is begun, so a placeholder that becomes nothing makes no difference.
theorem go_flatMap_shown {value? : Text → Option Text}
    (hvalue : ∀ body value, value? body = some value → '"' ∉ value) {quoted : Bool}
    (begun : Option (List Piece)) {ps : List Piece} (h : Enclosed quoted ps)
    (hbegun : quoted = true → begun.isSome = true)
    : quotedTokens?.go quoted (begun.map fun token => (token.flatMap (Piece.shown value?)).reverse)
          (ps.flatMap (Piece.shown value?))
        =
      some ((pieceTokens quoted begun ps).map fun token => token.flatMap (Piece.shown value?)) := by
  have hbegun' : ∀ begun : Option (List Piece),
      (begun.map fun token => (token.flatMap (Piece.shown value?)).reverse).getD []
        = ((begun.getD []).flatMap (Piece.shown value?)).reverse := by
    intro begun
    cases begun <;> rfl
  induction ps generalizing quoted begun with
  | nil =>
    rw [Enclosed] at h
    rw [h, List.flatMap_nil, quotedTokens?.go, pieceTokens]
    cases begun <;> simp
  | cons p ps ih =>
    cases p with
    | placeholder body =>
      obtain ⟨hquoted, hquote, hrest⟩ := h
      obtain ⟨token, rfl⟩ := Option.isSome_iff_exists.mp (hbegun hquoted)
      have hrun : ∀ c ∈ (Piece.placeholder body).shown value?,
          c ≠ '"' ∧ (quoted = false → isSeparator c = false) := by
        intro c hc
        refine ⟨?_, by simp [hquoted]⟩
        rintro rfl
        exact quote_not_mem_shown hvalue hquote hc
      rw [List.flatMap_cons, pieceTokens, ← ih _ hrest (fun _ => rfl), Option.map_some, Option.map_some,
        go_append_run hrun, Option.getD_some, List.flatMap_append, List.flatMap_singleton,
        List.reverse_append]
    | char c =>
      rw [Enclosed] at h
      rw [flatMap_shown_char, go_cons, pieceTokens]
      by_cases hc : c = '"'
      . rw [openAfter, if_pos hc] at h
        rw [if_pos hc, if_pos hc, ← ih _ h (fun _ => rfl), hbegun', Option.map_some]
      . rw [openAfter, if_neg hc] at h
        rw [if_neg hc, if_neg hc]
        by_cases hseparator : (!quoted && isSeparator c) = true
        . have hquoted : quoted = false := by simpa using (Bool.and_eq_true_iff.mp hseparator).1
          rw [hquoted] at h
          have hrest : quotedTokens?.go false none (ps.flatMap (Piece.shown value?))
              = some ((pieceTokens false none ps).map fun token => token.flatMap (Piece.shown value?)) :=
            ih none h fun h => by contradiction
          rw [if_pos hseparator, if_pos hseparator, List.map_append, hrest]
          cases begun with
          | none => rfl
          | some token =>
            dsimp only [Option.map_some]
            rw [List.reverse_reverse]
            rfl
        . rw [if_neg hseparator, if_neg hseparator, ← ih _ h (fun _ => rfl), hbegun', Option.map_some,
            List.flatMap_append, List.reverse_append]
          rfl

theorem tokenize_flatMap_shown {value? : Text → Option Text}
    (hvalue : ∀ body value, value? body = some value → '"' ∉ value) {ps qs : List Piece}
    (hstrip : Text.strip (ps.flatMap (Piece.shown value?)) = qs.flatMap (Piece.shown value?))
    (h : Enclosed false qs)
    : tokenize (ps.flatMap (Piece.shown value?))
        =
      (pieceTokens false none qs).map fun token => token.flatMap (Piece.shown value?) := by
  have hgo : quotedTokens? (qs.flatMap (Piece.shown value?))
      = some ((pieceTokens false none qs).map fun token => token.flatMap (Piece.shown value?)) :=
    go_flatMap_shown hvalue none h fun h => by contradiction
  unfold tokenize
  rw [hstrip, hgo]

/-- Substituting a scope into a directive whose placeholders all lie in quotes substitutes it into each
token: whatever the values are, they cut no token and join none. -/
theorem tokenize_applyScope {transforms : Transforms} {scope : Scope}
    (h : ∀ entry ∈ scope.entries, Inert transforms entry)
    (hquote : ∀ entry ∈ scope.entries,
      '"' ∉ entry.2 ∧ ∀ transform ∈ transforms.entries, '"' ∉ transform.2 entry.2)
    {text : Text} (hbalanced : Balanced text) (hsheltered : Sheltered false text)
    : tokenize (applyScope transforms text scope)
        =
      (tokenize text).map fun token => applyScope transforms token scope := by
  obtain ⟨ps, hps, rfl⟩ := regular_iff.mp hsheltered.regular
  obtain ⟨qs, hqs, hclosed, hstrip⟩ := exists_strip ((enclosed_iff hps).mpr ⟨hbalanced, hsheltered⟩)
  have hvalue : ∀ body value, firstValue? transforms scope.entries body = some value → '"' ∉ value := by
    intro body value hfirst
    obtain ⟨entry, hentry, hentryValue⟩ := List.exists_of_findSome?_eq_some hfirst
    exact not_mem_of_valueFor? (hquote entry hentry).1 (hquote entry hentry).2 hentryValue
  have hnone := tokenize_flatMap_shown (by simp) (hstrip fun _ => none) hclosed
  rw [shown_none] at hnone
  rw [applyScope_assemble h hps, Piece.inScope, tokenize_flatMap_shown hvalue (hstrip _) hclosed, assemble,
    hnone, List.map_map]
  apply List.map_congr_left
  intro token htoken
  have hsubset : token ⊆ ps := List.Subset.trans (subset_of_mem_pieceTokens htoken) hqs
  exact (applyScope_assemble h fun p hp => hps p (hsubset hp)).symm

def twoQuoted : List Piece :=
  ("include \"" : String).toList.map .char ++ [.placeholder "a"] ++ ("\" k=\"" : String).toList.map .char
    ++ [.placeholder "b.capitalized", .char '"']

def breakingVariables : Scope := .ofList [("a", "x where=\n y"), ("b", " p q")]

theorem tokenize_applyScope_breakingVariables
    : tokenize (assemble twoQuoted) = ["include", "$\x7ba\x7d", "k=$\x7bb.capitalized\x7d"] ∧
        tokenize (applyScope .standard (assemble twoQuoted) breakingVariables)
          = ["include", "x where=\n y", "k= P Q"] := by
  have hps : ∀ p ∈ twoQuoted, p.WellFormed := by decide +kernel
  have henclosed : Enclosed false twoQuoted := by decide +kernel
  obtain ⟨hbalanced, hsheltered⟩ := (enclosed_iff hps).mp henclosed
  have htokens : tokenize (assemble twoQuoted)
      = ["include", "$\x7ba\x7d", "k=$\x7bb.capitalized\x7d"] := by
    decide +kernel
  refine ⟨htokens, ?_⟩
  rw [tokenize_applyScope (by decide +kernel) (by decide +kernel) hbalanced hsheltered, htokens]
  decide +kernel

end Parameters
end Transclusion
