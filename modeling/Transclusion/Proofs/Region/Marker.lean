import Transclusion.Proofs.Text.Search
import Transclusion.Region

/-!
This module contains what an opening marker at the beginning of a text is, and why a marker does not
grow into another one: where the quoted parts of a later marker have no `>`, an opening marker that
begins earlier ends before it.
-/

namespace Transclusion
namespace Region

def Quotable (t : Text) : Prop :=
  t ≠ [] ∧ '"' ∉ t

structure Plain (t : Text) : Prop where
  ne_nil : t ≠ []
  quote_not_mem : '"' ∉ t
  lt_not_mem : '<' ∉ t
  gt_not_mem : '>' ∉ t

instance (t : Text) : Decidable (Plain t) :=
  decidable_of_iff (t ≠ [] ∧ '"' ∉ t ∧ '<' ∉ t ∧ '>' ∉ t)
    ⟨fun ⟨h₁, h₂, h₃, h₄⟩ => ⟨h₁, h₂, h₃, h₄⟩, fun ⟨h₁, h₂, h₃, h₄⟩ => ⟨h₁, h₂, h₃, h₄⟩⟩

theorem Plain.quotable {t : Text} (h : Plain t) : Quotable t :=
  ⟨h.ne_nil, h.quote_not_mem⟩

def openingWords : Text := "<!-- included "

def closingWords : Text := "<!-- / included "

def markerEnd : Text := [' ', '-', '-', '>']

def quotedParts (name id rest : Text) : Text :=
  '"' :: (name ++ '"' :: ([' ', '"'] ++ (id ++ '"' :: rest)))

theorem openingMarker_append (name id rest : Text)
    : openingMarker name id ++ rest = openingWords ++ quotedParts name id (markerEnd ++ rest) := by
  have hlead : ("<!-- included \"" : String).toList = openingWords ++ ['"'] := by rfl
  have hmid : ("\" \"" : String).toList = ['"', ' ', '"'] := by rfl
  have hend : ("\" -->" : String).toList = ['"', ' ', '-', '-', '>'] := by rfl
  unfold openingMarker quotedParts markerEnd
  rw [hlead, hmid, hend]
  simp only [List.append_assoc, List.cons_append, List.nil_append]

theorem closingMarker_append (name id rest : Text)
    : closingMarker name id ++ rest = closingWords ++ quotedParts name id (markerEnd ++ rest) := by
  have hlead : ("<!-- / included \"" : String).toList = closingWords ++ ['"'] := by rfl
  have hmid : ("\" \"" : String).toList = ['"', ' ', '"'] := by rfl
  have hend : ("\" -->" : String).toList = ['"', ' ', '-', '-', '>'] := by rfl
  unfold closingMarker quotedParts markerEnd
  rw [hlead, hmid, hend]
  simp only [List.append_assoc, List.cons_append, List.nil_append]

theorem upToQuote?_eq_some_iff {text content rest : Text}
    : upToQuote? text = some (content, rest) ↔ text = content ++ '"' :: rest ∧ Quotable content := by
  constructor
  . intro h
    have hparts := List.takeWhile_append_dropWhile (p := (· != '"')) (l := text)
    have hdrop := congrArg (List.drop (text.takeWhile (· != '"')).length) hparts
    rw [List.drop_left] at hdrop
    unfold upToQuote? at h
    dsimp only at h
    rw [← hdrop] at h
    split at h
    next c after hafter =>
      split at h
      next => simp at h
      next hne =>
        simp only [Option.some.injEq, Prod.mk.injEq] at h
        have hc := List.head?_dropWhile_not (· != '"') text
        rw [hafter] at hc
        simp only [List.head?_cons, bne_eq_false_iff_eq] at hc
        rw [hafter, h.1, h.2, hc] at hparts
        refine ⟨hparts.symm, ?_, ?_⟩
        . rw [← h.1]
          simpa using hne
        . rw [← h.1]
          intro hmem
          have := List.all_eq_true.mp List.all_takeWhile _ hmem
          simp at this
    next => simp at h
  . intro ⟨htext, hne, hquote⟩
    have htake : text.takeWhile (· != '"') = content := by
      rw [htext, List.takeWhile_append_of_pos]
      . simp
      . intro c hc
        simp only [bne_iff_ne, ne_eq]
        intro h
        exact hquote (h ▸ hc)
    unfold upToQuote?
    dsimp only
    rw [htake, htext, List.drop_left]
    simp [hne]

theorem openingLead_eq : openingLead = openingWords ++ ['"'] := by rfl

theorem openingAt?_eq_some_iff {text name id : Text}
    : openingAt? text = some (name, id) ↔
        Quotable name ∧ Quotable id ∧ ∃ rest, text = openingMarker name id ++ rest := by
  simp only [openingAt?, Option.bind_eq_bind, Option.bind_eq_some_iff, Text.isPrefixOf?_eq_some_iff,
    upToQuote?_eq_some_iff, Prod.exists, openingMarker_append, openingLead_eq, quotedParts]
  constructor
  . intro ⟨_, h₁, n, _, ⟨h₂, hn⟩, _, h₃, i, _, ⟨h₄, hi⟩, h₅⟩
    split at h₅
    next hend =>
      simp only [Option.some.injEq, Prod.mk.injEq] at h₅
      obtain ⟨rest, hrest⟩ := List.isPrefixOf_iff_prefix.mp hend
      rw [← h₅.1, ← h₅.2]
      refine ⟨hn, hi, rest, ?_⟩
      rw [h₁, h₂, h₃, h₄, ← hrest, List.append_assoc]
      rfl
    next => simp at h₅
  . intro ⟨hname, hid, rest, h⟩
    refine ⟨_, ?_, name, _, ⟨rfl, hname⟩, _, rfl, id, markerEnd ++ rest, ⟨rfl, hid⟩, ?_⟩
    . rw [h, List.append_assoc]
      rfl
    . simp [markerEnd]

theorem openingAt?_append_of_eq_some {u v : Text} {marked : Text × Text}
    (h : openingAt? u = some marked) : openingAt? (u ++ v) = some marked := by
  rw [openingAt?_eq_some_iff] at *
  obtain ⟨hname, hid, rest, hu⟩ := h
  refine ⟨hname, hid, rest ++ v, ?_⟩
  rw [hu, List.append_assoc]

theorem markerEnd_append_ne {t v r : Text} (ht : '>' ∉ t) : markerEnd ++ r ≠ t ++ '"' :: v := by
  intro h
  obtain ⟨t', ht', _⟩ := Text.exists_append_of_not_mem h (by decide)
  rw [ht'] at ht
  simp [markerEnd] at ht

-- The marker after the seam has four quotes. An opening marker from before the seam that takes in the
-- first of them ends its own name or id there, and then what follows in the later marker would have
-- to be its `" "` or its ` -->`. The character after the seam keeps the fixed words from crossing.
theorem openingAt?_of_append_quotedParts {u g name id v : Text} {c : Char} {marked : Text × Text}
    (hu : u ≠ []) (hg : '"' ∉ g) (hc : c = '\n' ∨ c = '<') (hname : '"' ∉ name) (hname' : '>' ∉ name)
    (hid : '>' ∉ id) (h : openingAt? (u ++ (c :: g ++ quotedParts name id v)) = some marked)
    : openingAt? u = some marked := by
  obtain ⟨d, u, rfl⟩ := List.exists_cons_of_ne_nil hu
  obtain ⟨a, b⟩ := marked
  obtain ⟨ha, hb, r, h⟩ := openingAt?_eq_some_iff.mp h
  rw [openingAt?_eq_some_iff]
  refine ⟨ha, hb, ?_⟩
  have hcg : '"' ∉ c :: g := by
    rcases hc with rfl | rfl <;> simpa using hg
  have hwords : c ∉ openingWords.tail ++ ['"'] := by
    rcases hc with rfl | rfl <;> decide
  have hgap : c ∉ [' ', '"'] := by
    rcases hc with rfl | rfl <;> decide
  have hend : c ∉ markerEnd := by
    rcases hc with rfl | rfl <;> decide
  have hlead : openingWords = '<' :: openingWords.tail := by rfl
  rw [openingMarker_append, hlead] at h
  simp only [List.cons_append, List.cons.injEq] at h
  obtain ⟨hd, h⟩ := h
  have h : openingWords.tail ++ ['"'] ++ (a ++ '"' :: ([' ', '"'] ++ (b ++ '"' :: (markerEnd ++ r))))
      = u ++ c :: (g ++ quotedParts name id v) := by
    rw [h, quotedParts]
    simp only [List.append_assoc, List.cons_append, List.nil_append]
  obtain ⟨u₁, hu₁, h⟩ := Text.exists_append_of_not_mem h hwords
  rcases Text.run_ends_before_or_takes_in h ha.2 hcg with ⟨u₂, hu₂, h⟩ | ⟨_, h⟩
  . obtain ⟨u₃, hu₃, h⟩ := Text.exists_append_of_not_mem h hgap
    rcases Text.run_ends_before_or_takes_in h hb.2 hcg with ⟨u₄, hu₄, h⟩ | ⟨_, h⟩
    . obtain ⟨u₅, hu₅, _⟩ := Text.exists_append_of_not_mem h hend
      refine ⟨u₅, ?_⟩
      rw [openingMarker_append, hlead, hd, hu₁, hu₂, hu₃, hu₄, hu₅, quotedParts]
      simp only [List.append_assoc, List.cons_append, List.nil_append]
    . exact absurd h (markerEnd_append_ne hname')
  . have := Text.append_cons_inj (a := [' ']) h (by decide) hname
    have := Text.append_cons_inj (b := [' ']) this.2 hb.2 (by decide)
    exact absurd this.2 (markerEnd_append_ne hid)

end Region
end Transclusion
