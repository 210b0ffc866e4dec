import Mathlib.Data.List.DropRight
import Transclusion.Proofs.Region.Scan

/-!
This module contains what the search for opening markers finds: from the left, each time the marker
that begins first behind the end of the last one, blanks before it included, until there is none any
more (`enumerates_openings`).
-/

namespace Transclusion
namespace Region

inductive Stands (text : Text) : Opening → Prop
  | intro {before blanks name id rest : Text}
      (htext : text = before ++ (blanks ++ (openingMarker name id ++ rest)))
      (hblanks : ∀ c ∈ blanks, Text.isIndent c = true) (hname : Quotable name) (hid : Quotable id)
      : Stands text {
          name
          id
          start := before.length
          stop := before.length + blanks.length + (openingMarker name id).length
          breaks := (before.rtakeWhile (· == '\n')).length
          rest }

/-- From the left and without overlaps, all markers that begin at `pos` or behind it. -/
inductive Enumerates (text : Text) : Nat → List Opening → Prop
  | done {pos : Nat} (h : ∀ o, Stands text o → o.start < pos) : Enumerates text pos []
  | next {pos : Nat} {o : Opening} {later : List Opening} (hstands : Stands text o)
      (hpos : pos ≤ o.start) (hleast : ∀ o', Stands text o' → pos ≤ o'.start → o.start ≤ o'.start)
      (hlater : Enumerates text o.stop later) : Enumerates text pos (o :: later)

def Margin (before : Text) (m : Nat × Nat) : Prop :=
  m.1 = ((before.rdropWhile Text.isIndent).rtakeWhile (· == '\n')).length ∧
    m.2 = (before.rtakeWhile Text.isIndent).length

theorem margin_nil : Margin [] (0, 0) := by
  simp [Margin]

theorem rdropWhile_eq_self_of_rtakeWhile {p : Char → Bool} {before : Text}
    (h : before.rtakeWhile p = []) : before.rdropWhile p = before := by
  have := List.rdropWhile_append_rtakeWhile (p := p) (l := before)
  rwa [h, List.append_nil] at this

theorem newline_ne_of_isIndent {c : Char} (h : Text.isIndent c = true) : c ≠ '\n' := by
  intro hc
  rw [hc] at h
  contradiction

theorem rtakeWhile_newline_eq_nil {before : Text} (h : before.rtakeWhile Text.isIndent ≠ [])
    : before.rtakeWhile (· == '\n') = [] := by
  rw [Ne, List.rtakeWhile_eq_nil_iff, not_forall] at h
  obtain ⟨hne, hlast⟩ := h
  rw [List.rtakeWhile_eq_nil_iff]
  intro _
  simpa using newline_ne_of_isIndent (not_not.mp hlast)

theorem Margin.concat {before : Text} {m : Nat × Nat} (h : Margin before m) (c : Char)
    : Margin (before ++ [c]) (margin m c) := by
  obtain ⟨hbreaks, hblanks⟩ := h
  by_cases hc : Text.isIndent c = true
  . simp [Margin, margin, hc, List.rdropWhile_concat_pos, List.rtakeWhile_concat_pos, hbreaks, hblanks]
  . by_cases hc' : c = '\n'
    . have hstep : ((before ++ [c]).rtakeWhile (· == '\n')).length
          = (before.rtakeWhile (· == '\n')).length + 1 := by
        rw [List.rtakeWhile_concat_pos _ _ _ (by simp [hc']), List.length_append, List.length_singleton]
      unfold Margin margin
      rw [if_neg hc, if_pos hc', List.rdropWhile_concat_neg _ _ _ hc, hstep,
        List.rtakeWhile_concat_neg _ _ _ hc]
      refine ⟨?_, rfl⟩
      dsimp only
      split
      next hzero =>
        rw [hzero, eq_comm, List.length_eq_zero_iff] at hblanks
        rw [hbreaks, rdropWhile_eq_self_of_rtakeWhile hblanks]
      next hne =>
        rw [hblanks, List.length_eq_zero_iff] at hne
        rw [rtakeWhile_newline_eq_nil hne]
        rfl
    . simp [Margin, margin, hc, hc', List.rdropWhile_concat_neg, List.rtakeWhile_concat_neg]

theorem length_rdropWhile_isIndent {before : Text} {m : Nat × Nat} (h : Margin before m)
    : (before.rdropWhile Text.isIndent).length = before.length - m.2 := by
  have := congrArg List.length (List.rdropWhile_append_rtakeWhile (p := Text.isIndent) (l := before))
  rw [List.length_append, ← h.2] at this
  omega

-- A marker with its blanks does not begin in front of the blanks that were counted: the last character
-- before them would be one of its blanks.
theorem length_rdropWhile_le_of_stands {before later : Text} {pos : Nat} {o : Opening}
    (hfree : ∀ front u, before = front ++ u → pos ≤ front.length → u ≠ [] →
      openingAt? (u ++ later) = none)
    (hstands : Stands (before ++ later) o) (hpos : pos ≤ o.start)
    : (before.rdropWhile Text.isIndent).length ≤ o.start := by
  cases hstands with
  | @intro front blanks name id rest htext hblanks hname hid =>
    dsimp only at *
    have hplace : ∃ w, front ++ blanks = before ++ w := by
      rw [← List.append_assoc] at htext
      rcases List.append_eq_append_iff.mp htext with ⟨w, hw, _⟩ | ⟨u, hu, hlater⟩
      . exact ⟨w, hw⟩
      . cases u with
        | nil => exact ⟨[], by simpa using hu.symm⟩
        | cons c u =>
          have hnone := hfree _ _ hu (by rw [List.length_append]; omega) (by simp)
          have hsome := openingAt?_eq_some_iff.mpr ⟨hname, hid, rest, hlater.symm⟩
          rw [hnone] at hsome
          contradiction
    obtain ⟨w, hw⟩ := hplace
    by_contra hlt
    have hdrop := List.rdropWhile_append_rtakeWhile (p := Text.isIndent) (l := before)
    rw [← hdrop, List.append_assoc] at hw
    rcases List.append_eq_append_iff.mp hw with ⟨z, hz, hrun⟩ | ⟨z, hz, _⟩
    . have hne : z ≠ [] := by
        rintro rfl
        simp [hz] at hlt
      have hne' : before.rdropWhile Text.isIndent ≠ [] := by simp [hz, hne]
      have hlast : (before.rdropWhile Text.isIndent).getLast hne' = z.getLast hne := by
        simp only [hz]
        exact List.getLast_append_of_ne_nil _ hne
      apply List.rdropWhile_last_not Text.isIndent before hne'
      rw [hlast]
      apply hblanks
      rw [hrun]
      exact List.mem_append_left _ (List.getLast_mem hne)
    . rw [hz, List.length_append] at hlt
      omega

/-- What holds at the place where the search has arrived: it has counted what is right before, and no
marker that begins at `pos` or behind it begins earlier. -/
structure Arrived (pos : Nat) (before later : Text) (m : Nat × Nat) : Prop where
  margin : Margin before m
  pos_le : pos ≤ (before.rdropWhile Text.isIndent).length
  free : ∀ front u, before = front ++ u → pos ≤ front.length → u ≠ [] → openingAt? (u ++ later) = none

theorem Arrived.step {pos : Nat} {before later : Text} {m : Nat × Nat} {c : Char}
    (h : Arrived pos before (c :: later) m) (hc : openingAt? (c :: later) = none)
    : Arrived pos (before ++ [c]) later (Region.margin m c) where
  margin := h.margin.concat c
  pos_le := by
    rw [List.rdropWhile_concat]
    have := h.pos_le
    have := (List.rdropWhile_prefix Text.isIndent (l := before)).length_le
    split
    . assumption
    . rw [List.length_append]
      omega
  free := by
    intro front u hu hpos hne
    rcases List.eq_nil_or_concat u with rfl | ⟨u, d, rfl⟩
    . contradiction
    . rw [List.concat_eq_append, ← List.append_assoc] at hu
      obtain ⟨hbefore, hd⟩ := List.append_inj' hu rfl
      rw [List.concat_eq_append, List.append_assoc, ← hd, List.singleton_append]
      cases u with
      | nil => exact hc
      | cons e u => exact h.free _ _ hbefore hpos (by simp)

theorem Arrived.not_stands {pos : Nat} {before : Text} {m : Nat × Nat} {o : Opening}
    (h : Arrived pos before [] m) (hpos : pos ≤ o.start) : ¬ Stands (before ++ []) o := by
  intro hstands
  cases hstands with
  | @intro front blanks name id rest htext _ hname hid =>
    dsimp only at hpos
    rw [List.append_nil, ← List.append_assoc] at htext
    have hnone := h.free _ _ htext (by rw [List.length_append]; omega) (by simp [openingMarker_ne_nil])
    have hsome := openingAt?_append_of_eq_some (v := [])
      (openingAt?_eq_some_iff.mpr ⟨hname, hid, rest, rfl⟩)
    rw [hnone] at hsome
    contradiction

theorem exists_openingMarker_concat (name id : Text) : ∃ t, openingMarker name id = t ++ ['>'] := by
  refine ⟨openingWords ++ quotedParts name id [' ', '-', '-'], ?_⟩
  have := openingMarker_append name id []
  rw [List.append_nil] at this
  rw [this]
  simp [quotedParts, markerEnd]

theorem arrived_openingMarker (before name id rest : Text)
    : Arrived (before ++ openingMarker name id).length (before ++ openingMarker name id) rest (0, 0) := by
  obtain ⟨t, ht⟩ := exists_openingMarker_concat name id
  have hend : ¬ Text.isIndent '>' = true := by decide
  rw [ht, ← List.append_assoc]
  constructor
  . unfold Margin
    rw [List.rdropWhile_concat_neg _ _ _ hend, List.rtakeWhile_concat_neg _ _ _ hend,
      List.rtakeWhile_concat_neg _ _ _ (by decide)]
    exact ⟨rfl, rfl⟩
  . rw [List.rdropWhile_concat_neg _ _ _ hend]
  . intro front u hu hpos hne
    rw [hu, List.length_append] at hpos
    have := List.length_pos_iff.mpr hne
    omega

theorem Arrived.stands {pos : Nat} {before rest name id : Text} {m : Nat × Nat}
    (h : Arrived pos before (openingMarker name id ++ rest) m) (hname : Quotable name)
    (hid : Quotable id)
    : Stands (before ++ (openingMarker name id ++ rest))
        (openingHere name id m.1 m.2 before.length rest) := by
  have hsplit := List.rdropWhile_append_rtakeWhile (p := Text.isIndent) (l := before)
  have htext : before ++ (openingMarker name id ++ rest)
      = before.rdropWhile Text.isIndent ++
          (before.rtakeWhile Text.isIndent ++ (openingMarker name id ++ rest)) := by
    rw [← List.append_assoc (before.rdropWhile Text.isIndent), hsplit]
  have hhere := Stands.intro htext (fun _ hc => List.mem_rtakeWhile_imp hc) hname hid
  rw [← List.length_append, hsplit, length_rdropWhile_isIndent h.margin, ← h.margin.1] at hhere
  exact hhere

theorem enumerates_go {text before later : Text} {pos : Nat} {m : Nat × Nat}
    (htext : text = before ++ later) (h : Arrived pos before later m)
    : Enumerates text pos (openings.go 0 m.1 m.2 before.length later) := by
  induction hlength : later.length using Nat.strongRecOn generalizing before later pos m with
  | _ length ih =>
    cases later with
    | nil =>
      rw [openings.go]
      apply Enumerates.done
      intro o hstands
      by_contra hpos
      rw [htext] at hstands
      exact h.not_stands (Nat.not_lt.mp hpos) hstands
    | cons c later =>
      cases hhere : openingAt? (c :: later) with
      | none =>
        have := ih later.length (by rw [← hlength, List.length_cons]; omega)
          (by rw [htext, List.append_assoc]; rfl) (h.step hhere) rfl
        rw [List.length_append, List.length_singleton] at this
        rw [go_cons_of_none hhere]
        exact this
      | some marked =>
        obtain ⟨name, id⟩ := marked
        obtain ⟨hname, hid, rest, hrest⟩ := openingAt?_eq_some_iff.mp hhere
        rw [hrest] at h htext hlength ⊢
        rw [go_openingMarker_append hname hid, ← List.length_append]
        have hstart := length_rdropWhile_isIndent h.margin
        apply Enumerates.next
        . rw [htext]
          exact h.stands hname hid
        . have := h.pos_le
          rw [openingHere]
          dsimp only
          omega
        . intro o hstands hpos
          rw [htext] at hstands
          have := length_rdropWhile_le_of_stands h.free hstands hpos
          rw [openingHere]
          dsimp only
          omega
        . have hpos := List.length_pos_iff.mpr (openingMarker_ne_nil name id)
          have := ih rest.length (by rw [← hlength, List.length_append]; omega)
            (by rw [htext, List.append_assoc]) (arrived_openingMarker before name id rest) rfl
          rw [openingHere, ← List.length_append]
          exact this

theorem enumerates_openings (text : Text) : Enumerates text 0 (openings text) := by
  have harrived : Arrived 0 [] text (0, 0) := by
    constructor
    . exact margin_nil
    . exact Nat.zero_le _
    . intro front u hu _ hne
      rw [eq_comm, List.append_eq_nil_iff] at hu
      exact absurd hu.2 hne
  exact enumerates_go rfl harrived

end Region
end Transclusion
