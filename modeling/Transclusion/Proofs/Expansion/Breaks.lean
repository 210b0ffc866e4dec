import Transclusion.Proofs.Directive.Lines
import Transclusion.Proofs.Directive.Quotes
import Transclusion.Proofs.Preprocess
import Transclusion.Proofs.Text.Utf8

/-!
This module contains what becomes of an expanded document when it is written and read again: the reader
changes line breaks, but in what was included only, so that cleaning still takes out exactly that
(`clean_normalizeBreaks_text`). Reading makes no new opening markers either (`unmarked_normalizeBreaks`).
-/

namespace Transclusion

open Utf8

namespace Region

theorem Quotable.of_normalizeBreaks {t : Text} (h : Quotable (normalizeBreaks t)) : Quotable t := by
  constructor
  . rintro rfl
    exact h.1 rfl
  . intro hquote
    exact h.2 (mem_normalizeBreaks hquote)

theorem unmarked_normalizeBreaks {t : Text} (h : Unmarked t) : Unmarked (normalizeBreaks t) := by
  intro u ⟨lead, hu⟩
  obtain ⟨lead', u', rfl, _, rfl⟩ := exists_append_of_normalizeBreaks_eq_append hu.symm
  cases hmarked : openingAt? (normalizeBreaks u') with
  | none => rfl
  | some marked =>
    obtain ⟨hname, hid, rest, hrest⟩ := openingAt?_eq_some_iff.mp hmarked
    have hparts : normalizeBreaks u' = (openingWords ++ ['"']) ++
        (marked.1 ++ (['"', ' ', '"'] ++ (marked.2 ++ (('"' :: markerEnd) ++ rest)))) := by
      rw [hrest, openingMarker_append, quotedParts]
      simp only [List.append_assoc, List.cons_append, List.nil_append]
    obtain ⟨afterLead, rfl, h₁⟩ := exists_append_of_not_mem (by decide) hparts
    obtain ⟨name, afterName, rfl, hname', h₂⟩ := exists_append_of_normalizeBreaks_eq_append h₁
    obtain ⟨beforeId, rfl, h₃⟩ := exists_append_of_not_mem (by decide) h₂
    obtain ⟨id, afterId, rfl, hid', h₄⟩ := exists_append_of_normalizeBreaks_eq_append h₃
    obtain ⟨after, rfl, _⟩ := exists_append_of_not_mem (by decide) h₄
    rw [← hname'] at hname
    rw [← hid'] at hid
    have hopening := openingAt?_eq_some_iff.mpr
      ⟨hname.of_normalizeBreaks, hid.of_normalizeBreaks, after, rfl⟩
    have hnone := h (openingMarker name id ++ after) ⟨lead', by
      rw [openingMarker_append, quotedParts]
      simp only [List.append_assoc, List.cons_append, List.nil_append]⟩
    rw [hnone] at hopening
    simp at hopening

structure PlainLine (t : Text) : Prop extends Plain t where
  return_not_mem : '\r' ∉ t
  newline_not_mem : '\n' ∉ t

section Markers

variable {c : Char} {name id : Text} (hc : c = '\r' ∨ c = '\n') (hname : c ∉ name) (hid : c ∉ id)

include hc hname hid

theorem not_mem_openingMarker : c ∉ openingMarker name id := by
  have hwords : c ∉ openingWords ∧ c ∉ markerEnd ∧ c ∉ [' ', '"'] := by
    rcases hc with rfl | rfl <;> decide
  rw [← List.append_nil (openingMarker name id), openingMarker_append, quotedParts]
  simp_all

theorem not_mem_closingMarker : c ∉ closingMarker name id := by
  have hwords : c ∉ closingWords ∧ c ∉ markerEnd ∧ c ∉ [' ', '"'] := by
    rcases hc with rfl | rfl <;> decide
  rw [← List.append_nil (closingMarker name id), closingMarker_append, quotedParts]
  simp_all

end Markers

theorem clean_of_unmarked {t : Text} (h : Unmarked t) : clean t = t := by
  apply clean_of_regions_eq_nil
  unfold regions survey
  rw [openings_eq_nil_iff.mpr h]
  rfl

theorem cut_subset (cursor : Nat) (text : Text) (rs : List Region) : cut cursor text rs ⊆ text := by
  induction rs generalizing cursor text with
  | nil => exact List.Subset.refl text
  | cons r rs ih =>
    rw [cut, List.append_subset]
    exact ⟨List.take_subset _ _, List.Subset.trans (ih _ _) (List.drop_subset _ _)⟩

theorem clean_subset (text : Text) : clean text ⊆ text :=
  cut_subset 0 text (regions text)

end Region

namespace Expansion

open Region (PlainLine)

def Block.OnLines : Block → Prop
  | .region indent name id body =>
    (Block.region indent name id body).Cleanable ∧ PlainLine name ∧ PlainLine id
  | block => block.Cleanable

theorem exists_normalized_block {block : Block} (h : block.OnLines)
    : ∃ block' : Block, block'.Cleanable ∧
        ∀ rest, normalizeBreaks (block.text ++ rest) = block'.text ++ normalizeBreaks rest := by
  cases block with
  | skipped => exact ⟨.skipped, trivial, fun _ => rfl⟩
  | nested body => exact h.elim
  | region indent name id body =>
    obtain ⟨⟨hindent, _, _, hclosed⟩, hname, hid⟩ := h
    obtain ⟨body', hbody⟩ := exists_normalizeBreaks_append_newline body
    have hindent' : '\r' ∉ indent := by
      intro hmem
      simp [Text.isIndent] at hindent
      exact absurd (hindent _ hmem) (by decide)
    have hopening : '\r' ∉ '\n' :: indent ++ Region.openingMarker name id ++ ['\n'] := by
      have := Region.not_mem_openingMarker (.inl rfl) hname.return_not_mem hid.return_not_mem
      simp [hindent', this]
    have hclosing : '\r' ∉ indent ++ Region.closingMarker name id ++ ['\n'] := by
      have := Region.not_mem_closingMarker (.inl rfl) hname.return_not_mem hid.return_not_mem
      simp [hindent', this]
    have hinside : normalizeBreaks (insideMarkers indent body) = insideMarkers indent body' := by
      unfold insideMarkers
      rw [List.append_assoc, List.append_assoc, List.singleton_append,
        normalizeBreaks_cons_of_ne (by decide), List.singleton_append, hbody,
        normalizeBreaks_eq_self_iff.mpr hindent']
      simp
    refine ⟨.region indent name id body', ⟨hindent, hname.toPlain, hid.toPlain, ?_⟩, ?_⟩
    . rw [← hinside]
      intro hwithin
      apply hclosed
      exact infix_of_infix_normalizeBreaks
        (Region.not_mem_closingMarker (.inr rfl) hname.newline_not_mem hid.newline_not_mem) hwithin
    . intro rest
      have htext : ∀ body rest : Text, (Block.region indent name id body).text ++ rest
          = ('\n' :: indent ++ Region.openingMarker name id ++ ['\n']) ++
            (body ++ '\n' :: ((indent ++ Region.closingMarker name id ++ ['\n']) ++ rest)) := by
        intro body rest
        unfold Block.text wrapped
        simp only [List.append_assoc, List.cons_append, List.nil_append]
      rw [htext, htext, normalizeBreaks_append_of_not_mem hopening, hbody,
        normalizeBreaks_append_of_not_mem hclosing]

theorem exists_normalized {pieces : List Piece}
    (h : ∀ piece ∈ pieces, '\r' ∉ piece.source ∧ piece.block.OnLines)
    : ∃ pieces' : List Piece, (∀ piece ∈ pieces', piece.block.Cleanable) ∧
        pieces'.flatMap Piece.source = pieces.flatMap Piece.source ∧
        ∀ rest, normalizeBreaks (pieces.flatMap Piece.text ++ rest)
          = pieces'.flatMap Piece.text ++ normalizeBreaks rest := by
  induction pieces with
  | nil => exact ⟨[], by simp, rfl, fun _ => rfl⟩
  | cons piece pieces ih =>
    rw [List.forall_mem_cons] at h
    obtain ⟨pieces', hcleanable, hsource, htext⟩ := ih h.2
    obtain ⟨block', hcleanable', htext'⟩ := exists_normalized_block h.1.2
    refine ⟨{ piece with block := block' } :: pieces', ?_, ?_, ?_⟩
    . rw [List.forall_mem_cons]
      exact ⟨hcleanable', hcleanable⟩
    . rw [List.flatMap_cons, List.flatMap_cons, hsource]
      rfl
    . intro rest
      have hpiece : ∀ piece : Piece, piece.text = piece.source ++ piece.block.text := fun _ => rfl
      rw [List.flatMap_cons, List.flatMap_cons, hpiece, hpiece, List.append_assoc, List.append_assoc,
        normalizeBreaks_append_of_not_mem h.1.1, htext', htext]
      simp only [List.append_assoc]
      rfl

theorem plainLine_of_made {d : Directive} {name : Text} (hd : '\r' ∉ d.parameters)
    (hline : '\n' ∉ d.parameters) (hname : (Parameters.parse d.parameters).name = some name)
    (hplain : Region.Plain name) : PlainLine name := by
  have hsubset := Parameters.subset_of_mem_tokenize (Parameters.mem_of_valueAfter?_eq_some hname)
  exact { hplain with
    return_not_mem := fun h => hd (hsubset h)
    newline_not_mem := fun h => hline (hsubset h) }

theorem clean_normalizeBreaks_text {env : Environment} {scope : Scope} {text : Text} {e : Expanded}
    {p q : Progress} (hnames : ∀ name ∈ env.library.index.keys, Region.Plain name)
    (hids : ∀ n, PlainLine (env.ids n)) (hrun : (expanded env false scope text).exec p = (.ok e, q))
    (hclosed : ∀ piece ∈ e.pieces, piece.block.ClosedOnce) (htext : '\r' ∉ text)
    (hunmarked : Region.Unmarked text) : Region.clean (normalizeBreaks e.text) = text := by
  obtain ⟨hsource, hinserts, hindent⟩ := expanded_inserts hrun
  have honLines : ∀ piece ∈ e.pieces, '\r' ∉ piece.source ∧ piece.block.OnLines := by
    intro piece hpiece
    have hpieceSource : '\r' ∉ piece.source := by
      intro hmem
      rw [← hsource] at htext
      exact htext (List.mem_append_left _ (List.mem_flatMap.mpr ⟨piece, hpiece, hmem⟩))
    have hmade := hinserts.made piece hpiece
    have hcleanable := Preprocess.cleanable_of_made hnames (fun n => (hids n).toPlain)
      (hindent piece hpiece) hmade (hclosed piece hpiece)
    refine ⟨hpieceSource, ?_⟩
    obtain ⟨_, later, hlater⟩ := exists_parametersAt?_of_mem_go (mem_ofText_of_expanded hrun hpiece)
    rcases hmade with hskipped | ⟨name, n, body, hregion, hname, hkey⟩
    . rw [hskipped]
      trivial
    . rw [hregion] at hcleanable ⊢
      refine ⟨hcleanable, plainLine_of_made ?_ ?_ hname (hnames name hkey), hids n⟩
      . intro hmem
        apply hpieceSource
        unfold Piece.source Directive.text
        simp [hmem]
      . exact Directive.newline_not_mem_of_parametersAt?_eq_some hlater
  obtain ⟨pieces', hcleanable, hsource', hnormalized⟩ := exists_normalized honLines
  have hrest : '\r' ∉ e.rest := by
    intro hmem
    rw [← hsource] at htext
    exact htext (List.mem_append_right _ hmem)
  have hread : normalizeBreaks e.text = Expanded.text { pieces := pieces', rest := e.rest } := by
    have := hnormalized e.rest
    rw [normalizeBreaks_eq_self_iff.mpr hrest] at this
    exact this
  have hsame : Expanded.source { pieces := pieces', rest := e.rest } = text := by
    rw [← hsource]
    unfold Expanded.source
    rw [hsource']
  rw [← hsame] at hunmarked
  rw [hread, (clean_text hcleanable hunmarked).2, hsame]

end Expansion

namespace Preprocess

open Expansion

theorem clean_normalizeBreaks_process {env : Environment} {globals : Scope} {x y document : Text}
    {drawn : Nat} (hnames : ∀ name ∈ env.library.index.keys, Region.Plain name)
    (hids : ∀ n, Region.PlainLine (env.ids n)) (hx : '\r' ∉ x) (hclean : Region.Unmarked (Region.clean x))
    (hclosed : ∀ e, (start document drawn (processed env globals x)).1 = .ok e →
      ∀ piece ∈ e.pieces, piece.block.ClosedOnce)
    (h : (start document drawn (process env globals x)).1 = .ok y)
    : Region.clean (normalizeBreaks y) = Region.clean x := by
  cases hrun : (start document drawn (processed env globals x)).1 with
  | error e =>
    unfold start at h hrun
    rw [exec_process, hrun] at h
    cases h
  | ok e =>
    obtain ⟨q, hexpanded, hprocess, _⟩ := exists_expanded hrun
    unfold start at h
    rw [hprocess, Except.ok.injEq] at h
    rw [← h]
    exact clean_normalizeBreaks_text hnames hids hexpanded (hclosed e hrun)
      (fun hmem => hx (Region.clean_subset x hmem)) hclean

end Preprocess
end Transclusion
