import Transclusion.Proofs.Region.Removal

/-!
This module contains what a second round of cleaning can find: a marker that has a part on both sides of
a region. Where there is none, the second round changes nothing (`clean_clean_of_seamless`).
-/

namespace Transclusion
namespace Region

def Joins (marker before after : Text) : Prop :=
  ∃ u v, u ≠ [] ∧ v ≠ [] ∧ marker = u ++ v ∧ u <:+ before ∧ v <+: after

def keptBefore (text : Text) (r : Region) : Text :=
  outside (regions text) 0 (text.take r.start)

def keptAfter (text : Text) (r : Region) : Text :=
  outside (regions text) r.stop (text.drop r.stop)

/-- No marker is made of what stands on both sides of a region. -/
def Seamless (text : Text) : Prop :=
  ∀ r ∈ regions text, ∀ name id, Quotable name → Quotable id →
    ¬ Joins (openingMarker name id) (keptBefore text r) (keptAfter text r) ∧
      ¬ Joins (closingMarker name id) (keptBefore text r) (keptAfter text r)

structure Whole (rs : List Region) (cursor : Nat) (text kept piece : Text) (before after : Text)
    : Prop where
  text_eq : text = before ++ (piece ++ after)
  kept_eq : outside rs cursor before = kept
  clear : ∀ i, cursor + before.length ≤ i → i < cursor + before.length + piece.length →
    covers rs i = false

theorem le_start_of_mem {cursor limit : Nat} {rs : List Region} {r : Region}
    (h : Ordered cursor limit rs) (hr : r ∈ rs) : cursor ≤ r.start ∧ r.start < r.stop := by
  induction rs generalizing cursor with
  | nil => simp at hr
  | cons first rs ih =>
    obtain ⟨hstart, hlt, _, hrest⟩ := h
    rcases List.mem_cons.mp hr with rfl | hr
    . exact ⟨hstart, hlt⟩
    . have := ih hrest hr
      omega

def Placed (rs : List Region) (cursor : Nat) (text kept piece : Text) : Prop :=
  (∃ before after, Whole rs cursor text kept piece before after) ∨
    ∃ r ∈ rs, Joins piece (outside rs cursor (text.take (r.start - cursor)))
      (outside rs r.stop (text.drop (r.stop - cursor)))

section Step

variable {cursor limit : Nat} {r : Region} {rs : List Region} {a b c kept piece : Text}
  (hrest : Ordered r.stop limit rs) (hlt : r.start < r.stop) (hstart : cursor ≤ r.start)
  (ha : a.length = r.start - cursor) (hb : b.length = r.stop - r.start)

include hrest hlt hstart ha

theorem Placed.before (later : Text) (hpiece : a = kept ++ (piece ++ later))
    : Placed (r :: rs) cursor (a ++ (b ++ c)) kept piece := by
  have hlength := congrArg List.length hpiece
  rw [List.length_append, List.length_append] at hlength
  refine .inl ⟨kept, later ++ (b ++ c), ?_, ?_, ?_⟩
  . rw [hpiece]
    simp only [List.append_assoc]
  . apply outside_of_not_covers
    intro i _ hi
    exact not_covers_before hrest hlt (by omega)
  . intro i _ hi
    exact not_covers_before hrest hlt (by omega)

include hb

-- What lies behind the first region is placed there as in the rest of the text.
theorem Placed.behind (h : Placed rs r.stop c kept piece)
    : Placed (r :: rs) cursor (a ++ (b ++ c)) (a ++ kept) piece := by
  have hlength : cursor + a.length + b.length = r.stop := by omega
  rcases h with ⟨before, after, hwhole⟩ | ⟨s, hs, u, v, hu, hv, hpiece, hbefore, hafter⟩
  . refine .inl ⟨a ++ (b ++ before), after, ?_, ?_, ?_⟩
    . rw [hwhole.text_eq]
      simp only [List.append_assoc]
    . rw [outside_cons hrest hlt hstart ha hb, hwhole.kept_eq]
    . intro i hi hi'
      rw [List.length_append, List.length_append] at hi hi'
      rw [covers_cons_of_le (by omega)]
      exact hwhole.clear i (by omega) (by omega)
  . obtain ⟨hle, hlt'⟩ := le_start_of_mem hrest hs
    have htake : (a ++ (b ++ c)).take (s.start - cursor) = a ++ (b ++ c.take (s.start - r.stop)) := by
      rw [← List.append_assoc, ← List.append_assoc, List.take_append, List.take_of_length_le]
      . rw [List.length_append, show s.start - cursor - (a.length + b.length) = s.start - r.stop by omega]
      . rw [List.length_append]
        omega
    have hdrop : (a ++ (b ++ c)).drop (s.stop - cursor) = c.drop (s.stop - r.stop) := by
      rw [← List.append_assoc, List.drop_append, List.drop_of_length_le, List.nil_append,
        List.length_append, show s.stop - cursor - (a.length + b.length) = s.stop - r.stop by omega]
      rw [List.length_append]
      omega
    refine .inr ⟨s, List.mem_cons_of_mem _ hs, u, v, hu, hv, hpiece, ?_, ?_⟩
    . rw [htake, outside_cons hrest hlt hstart ha hb]
      exact hbefore.trans (List.suffix_append a _)
    . rw [hdrop, outside_cons_of_le (by omega)]
      exact hafter

theorem Placed.across {u v : Text} (hu : u ≠ []) (hv : v ≠ []) (ha' : a = kept ++ u)
    (hc : v <+: outside rs r.stop c)
    : Placed (r :: rs) cursor (a ++ (b ++ c)) kept (u ++ v) := by
  refine .inr ⟨r, List.mem_cons_self, u, v, hu, hv, rfl, ?_, ?_⟩
  . rw [List.take_left' ha, outside_of_not_covers]
    . rw [ha']
      exact List.suffix_append kept u
    . intro i _ hi
      exact not_covers_before hrest hlt (by omega)
  . have hdrop : (a ++ (b ++ c)).drop (r.stop - cursor) = c := by
      rw [← List.append_assoc]
      apply List.drop_left'
      rw [List.length_append]
      omega
    rw [hdrop, outside_cons_of_le (Nat.le_refl _)]
    exact hc

end Step

theorem placed_of_outside_eq {cursor : Nat} {text : Text} {rs : List Region}
    (h : Ordered cursor (cursor + text.length) rs) {kept piece later : Text}
    (hkept : outside rs cursor text = kept ++ (piece ++ later))
    : Placed rs cursor text kept piece := by
  induction rs generalizing cursor text kept with
  | nil =>
    rw [outside_of_not_covers fun _ _ _ => rfl] at hkept
    exact .inl ⟨kept, later, hkept, outside_of_not_covers fun _ _ _ => rfl, fun _ _ _ => rfl⟩
  | cons r rs ih =>
    obtain ⟨hstart, hlt, hstop, hrest⟩ := h
    obtain ⟨a, b, c, rfl, ha, hb⟩ := exists_parts hstart hlt hstop
    have hlimit : cursor + (a ++ (b ++ c)).length = r.stop + c.length := by
      rw [List.length_append, List.length_append]
      omega
    rw [hlimit] at hrest
    rw [outside_cons hrest hlt hstart ha hb] at hkept
    rcases List.append_eq_append_iff.mp hkept with ⟨k, rfl, hc⟩ | ⟨d, hd, hpiece⟩
    . exact (ih hrest hc).behind hrest hlt hstart ha hb
    . rcases List.append_eq_append_iff.mp hpiece with ⟨e, rfl, _⟩ | ⟨v, rfl, hc⟩
      . exact .before hrest hlt hstart ha e hd
      . -- One of the two sides may have nothing of the piece.
        by_cases hu : d = []
        . subst hu
          rw [List.append_nil] at hd
          subst hd
          have hc' : outside rs r.stop c = [] ++ (v ++ later) := hc
          have hplaced := (ih hrest hc').behind hrest hlt hstart ha hb
          rwa [List.append_nil] at hplaced
        . by_cases hv : v = []
          . subst hv
            rw [List.append_nil]
            exact .before hrest hlt hstart ha [] (by rw [List.append_nil]; exact hd)
          . exact .across hrest hlt hstart ha hb hu hv hd (hc ▸ List.prefix_append v later)

/-! ## Markers that do not overlap -/

theorem exists_openingMarker_eq_cons {name id : Text} (hname : '<' ∉ name) (hid : '<' ∉ id)
    : ∃ tail, openingMarker name id = '<' :: tail ∧ '<' ∉ tail := by
  refine ⟨"!-- included \"" ++ name ++ "\" \"" ++ id ++ "\" -->", rfl, ?_⟩
  simp only [List.mem_append, not_or]
  exact ⟨⟨⟨⟨by decide, hname⟩, by decide⟩, hid⟩, by decide⟩

theorem exists_openingMarker_eq_lt (name id : Text) : ∃ tail, openingMarker name id = '<' :: tail :=
  ⟨_, rfl⟩

theorem eq_of_openingMarker_overlap {before blanks front name id name' id' rest rest' : Text}
    (hname : '<' ∉ name) (hid : '<' ∉ id) (hblanks : ∀ c ∈ blanks, Text.isIndent c = true)
    (h : front ++ (blanks ++ (openingMarker name id ++ rest))
      = before ++ (openingMarker name' id' ++ rest'))
    (hfront : front.length ≤ before.length)
    (hbefore : before.length < front.length + blanks.length + (openingMarker name id).length)
    : before = front ++ blanks := by
  obtain ⟨tail, htail, hlt⟩ := exists_openingMarker_eq_cons hname hid
  obtain ⟨tail', htail'⟩ := exists_openingMarker_eq_lt name' id'
  rw [← List.append_assoc, htail, htail'] at h
  rw [htail] at hbefore
  rcases List.append_eq_append_iff.mp h with ⟨w, hw, hrest⟩ | ⟨w, hw, hrest⟩
  . cases w with
    | nil => rw [hw, List.append_nil]
    | cons c w =>
      -- The other marker would begin inside this one.
      have hlength := congrArg List.length hw
      simp only [List.length_append, List.length_cons] at hlength hbefore
      rw [List.cons_append, List.cons_append, List.cons.injEq] at hrest
      rcases List.append_eq_append_iff.mp hrest.2 with ⟨x, hx, _⟩ | ⟨x, hx, hx'⟩
      . have := congrArg List.length hx
        rw [List.length_append] at this
        omega
      . cases x with
        | nil =>
          rw [List.append_nil] at hx
          rw [hx] at hbefore
          omega
        | cons d x =>
          rw [List.cons_append, List.cons_append, List.cons.injEq] at hx'
          rw [hx, ← hx'.1] at hlt
          simp at hlt
  . cases w with
    | nil => rw [hw, List.append_nil]
    | cons c w =>
      -- It would begin with a blank.
      rw [List.cons_append, List.cons_append, List.cons.injEq] at hrest
      rcases List.append_eq_append_iff.mp hw with ⟨x, _, hx⟩ | ⟨x, hx, hx'⟩
      . have hc := hblanks c (by rw [hx]; simp)
        rw [← hrest.1] at hc
        contradiction
      . have hlength := congrArg List.length hx
        rw [List.length_append] at hlength
        have hnil : x = [] := List.eq_nil_of_length_eq_zero (by omega)
        rw [hnil, List.nil_append] at hx'
        have hc := hblanks c (by rw [← hx']; simp)
        rw [← hrest.1] at hc
        contradiction

theorem Enumerates.exists_of_marker {text : Text} {pos : Nat} {found : List Opening}
    (h : Enumerates text pos found) (hplain : ∀ o ∈ found, '<' ∉ o.name ∧ '<' ∉ o.id)
    {before name id rest : Text} (hname : Quotable name) (hid : Quotable id)
    (htext : text = before ++ (openingMarker name id ++ rest)) (hpos : pos ≤ before.length)
    : ∃ o ∈ found, o.name = name ∧ o.id = id ∧ o.rest = rest ∧
        ∃ front blanks, before = front ++ blanks ∧ o.start = front.length ∧
          ∀ c ∈ blanks, Text.isIndent c = true := by
  have hhere : Stands text _ := @Stands.intro text before [] name id rest htext (by simp) hname hid
  induction h with
  | done hnone =>
    have := hnone _ hhere
    dsimp only at this
    omega
  | @next pos o later hstands _ hleast hlater ih =>
    rw [List.forall_mem_cons] at hplain
    by_cases hstop : o.stop ≤ before.length
    . obtain ⟨o', ho', hrest⟩ := ih hplain.2 hstop
      exact ⟨o', List.mem_cons_of_mem _ ho', hrest⟩
    . have hstart := hleast _ hhere hpos
      cases hstands with
      | @intro front blanks name' id' rest' htext' hblanks hname' hid' =>
        dsimp only at hstop hstart hplain
        have hbefore := eq_of_openingMarker_overlap hplain.1.1 hplain.1.2 hblanks
          (htext'.symm.trans htext) hstart (by omega)
        rw [htext', ← List.append_assoc, ← hbefore] at htext
        have hmarkers := List.append_cancel_left htext
        have hsame : some (name', id') = some (name, id) := by
          rw [← openingAt?_eq_some_iff.mpr ⟨hname', hid', rest', rfl⟩, hmarkers,
            openingAt?_eq_some_iff.mpr ⟨hname, hid, rest, rfl⟩]
        obtain ⟨rfl, rfl⟩ := Prod.mk.inj (Option.some.inj hsame)
        exact ⟨_, List.mem_cons_self, rfl, rfl, List.append_cancel_left hmarkers, front, blanks, hbefore,
          rfl, hblanks⟩

/-! ## A second round -/

theorem Complete.stop_le {text : Text} {limit : Nat} {o : Opening} {r : Region} {p : Parts}
    (h : Complete text limit o r p) {before rest : Text}
    (htext : text = before ++ (openingMarker o.name o.id ++ rest)) (hrest : o.rest = rest)
    : r.start ≤ before.length ∧ before.length < r.stop := by
  have hlength := congrArg List.length (h.text_eq.symm.trans htext)
  have hlater := congrArg List.length (h.rest_eq.symm.trans hrest)
  have hpos := List.length_pos_iff.mpr (openingMarker_ne_nil o.name o.id)
  have hstart := h.start_eq
  have hstop := h.stop_eq
  simp only [Parts.region, List.length_append] at hlength hlater hstop
  omega

theorem exists_closingMarker_concat (name id : Text) : ∃ t, closingMarker name id = t ++ ['>'] := by
  refine ⟨"<!-- / included \"" ++ name ++ "\" \"" ++ id ++ "\" --", ?_⟩
  unfold closingMarker
  rw [List.append_assoc _ _ ['>']]
  rfl

theorem Complete.exists_last {text : Text} {limit : Nat} {o : Opening} {r : Region} {p : Parts}
    (h : Complete text limit o r p)
    : ∃ lead c tail, text = lead ++ c :: tail ∧ lead.length + 1 = r.stop ∧ Text.isIndent c = false := by
  have hstart := h.start_eq
  have hstop := h.stop_eq
  have htext := h.text_eq
  obtain ⟨t, ht⟩ := exists_closingMarker_concat o.name o.id
  unfold Parts.region at htext hstop
  rcases h.ending_eq with hending | ⟨hending, _⟩
  . rw [hending] at htext hstop
    refine ⟨p.before ++ (p.breaks ++ (p.blanks ++ (openingMarker o.name o.id ++
      (p.inside ++ closingMarker o.name o.id)))), '\n', p.after, ?_, ?_, by decide⟩
    . rw [htext]
      simp only [List.append_assoc, List.cons_append, List.nil_append]
    . simp only [List.length_append, List.length_singleton] at hstop ⊢
      omega
  . rw [hending, ht] at htext hstop
    refine ⟨p.before ++ (p.breaks ++ (p.blanks ++ (openingMarker o.name o.id ++ (p.inside ++ t)))), '>',
      p.after, ?_, ?_, by decide⟩
    . rw [htext]
      simp only [List.append_assoc, List.cons_append, List.nil_append]
    . simp only [List.length_append, List.length_singleton, List.length_nil] at hstop ⊢
      omega

theorem covers_eq_false_iff {rs : List Region} {i : Nat}
    : covers rs i = false ↔ ∀ r ∈ rs, ¬ (r.start ≤ i ∧ i < r.stop) := by
  simp [covers]

theorem mem_of_append_eq {front blanks rest lead tail : Text} {c : Char}
    (h : front ++ (blanks ++ rest) = lead ++ c :: tail) (hfront : front.length ≤ lead.length)
    (hlead : lead.length < front.length + blanks.length) : c ∈ blanks := by
  have hc : (lead ++ c :: tail)[lead.length]? = some c := by simp
  rw [← h, List.getElem?_append_right hfront, List.getElem?_append_left (by omega)] at hc
  exact List.mem_of_getElem? hc

theorem not_closed_of_clear {text before name id rest : Text}
    (hplain : ∀ o ∈ openings text, '<' ∉ o.name ∧ '<' ∉ o.id) (hname : Quotable name)
    (hid : Quotable id) (htext : text = before ++ (openingMarker name id ++ rest))
    (hclear : covers (regions text) before.length = false) : ¬ closingMarker name id <:+: rest := by
  intro hclosed
  obtain ⟨o, ho, rfl, rfl, rfl, front, blanks, hbefore, hstart, hblanks⟩ :=
    (enumerates_openings text).exists_of_marker hplain hname hid htext (Nat.zero_le _)
  have hlength := congrArg List.length hbefore
  rw [List.length_append] at hlength
  rw [covers_eq_false_iff] at hclear
  have hcovered : ¬ Covered text o := by
    rintro ⟨e, _, r, ⟨earlier, later, p, hrs, hp⟩, hlt, hstop⟩
    have hr := hclear r (by rw [hrs]; simp)
    have hmarker := hp.marker_eq
    obtain ⟨lead, c, tail, hlead, hlast, hc⟩ := hp.exists_last
    rw [htext, hbefore, List.append_assoc] at hlead
    rw [hblanks c (mem_of_append_eq hlead (by omega) (by omega))] at hc
    contradiction
  obtain ⟨r, earlier, later, p, hrs, hp⟩ := exists_removed_of_closed ho hcovered hclosed
  exact hclear r (by rw [hrs]; simp) (hp.stop_le htext rfl)

theorem outside_append_of_whole {rs : List Region} {text kept piece x after : Text}
    (h : Whole rs 0 text kept piece x after) : outside rs 0 (x ++ piece) = kept ++ piece := by
  rw [outside_append, h.kept_eq, outside_of_not_covers]
  intro i hi hi'
  exact h.clear i hi hi'

theorem isPrefix_of_whole {rs : List Region} {text kept kept' piece piece' after after' x x' : Text}
    (hpiece : piece ≠ []) (h : Whole rs 0 text kept piece x after)
    (h' : Whole rs 0 text (kept ++ (piece ++ kept')) piece' x' after')
    : x ++ piece <+: x' := by
  have hx : x ++ piece <+: text := ⟨after, by rw [h.text_eq, List.append_assoc]⟩
  have hx' : x' <+: text := ⟨piece' ++ after', h'.text_eq.symm⟩
  rcases List.prefix_or_prefix_of_prefix hx hx' with hprefix | ⟨t, ht⟩
  . exact hprefix
  . -- What stands behind `x'` is removed, but the last character of the piece is not.
    have hkept := outside_append_of_whole h
    rw [← ht, outside_append, h'.kept_eq, Nat.zero_add] at hkept
    have hlength := congrArg List.length hkept
    simp only [List.length_append] at hlength
    have hremoved : outside rs x'.length t = [] := List.eq_nil_of_length_eq_zero (by omega)
    rcases t.eq_nil_or_concat with rfl | ⟨lead, c, rfl⟩
    . rw [List.append_nil] at ht
      exact ⟨[], by rw [ht, List.append_nil]⟩
    . rw [List.concat_eq_append] at ht hremoved
      have hlengths := congrArg List.length ht
      simp only [List.length_append, List.length_singleton] at hlengths
      have hpos := List.length_pos_iff.mpr hpiece
      have hlast : outside rs (x'.length + lead.length) [c] = [c] := by
        apply outside_of_not_covers
        intro i hi hi'
        rw [List.length_singleton] at hi'
        exact h.clear i (by omega) (by omega)
      rw [outside_append, hlast] at hremoved
      simp at hremoved

/-- Where no marker that is found has an angle bracket inside and none is made of what stands on both
sides of a region, a second round of cleaning changes nothing. -/
theorem clean_clean_of_seamless {text : Text}
    (hplain : ∀ o ∈ openings text, '<' ∉ o.name ∧ '<' ∉ o.id) (h : Seamless text)
    : clean (clean text) = clean text ∧ regions (clean text) = [] := by
  suffices hregions : regions (clean text) = [] from ⟨clean_of_regions_eq_nil hregions, hregions⟩
  rw [regions_eq_nil_iff]
  intro o ho ⟨inside, tail, hrest⟩
  have hordered : Ordered 0 (0 + text.length) (regions text) := by
    rw [Nat.zero_add]
    exact ordered_regions text
  have hwhole : ∀ {kept piece later : Text}, clean text = kept ++ (piece ++ later) →
      (∀ r ∈ regions text, ¬ Joins piece (keptBefore text r) (keptAfter text r)) →
        ∃ before after, Whole (regions text) 0 text kept piece before after := by
    intro kept piece later hclean hjoins
    rw [clean_eq_outside] at hclean
    rcases placed_of_outside_eq hordered hclean with hwhole | ⟨r, hr, hjoined⟩
    . exact hwhole
    . exact absurd hjoined (hjoins r hr)
  cases ((enumerates_openings (clean text)).stands o ho).1 with
  | @intro before blanks name id rest htext _ hname hid =>
    dsimp only at hrest
    rw [← List.append_assoc] at htext
    obtain ⟨x, after, hopening⟩ := hwhole htext fun r hr => (h r hr name id hname hid).1
    have htext' : clean text = ((before ++ blanks) ++ (openingMarker name id ++ inside)) ++
        (closingMarker name id ++ tail) := by
      rw [htext, ← hrest]
      simp only [List.append_assoc]
    obtain ⟨x', after', hclosing⟩ := hwhole htext' fun r hr => (h r hr name id hname hid).2
    obtain ⟨between, hbetween⟩ := isPrefix_of_whole (openingMarker_ne_nil name id) hopening hclosing
    have hpos := List.length_pos_iff.mpr (openingMarker_ne_nil name id)
    apply not_closed_of_clear hplain hname hid hopening.text_eq
    . exact hopening.clear _ (by omega) (by omega)
    . refine ⟨between, after', ?_⟩
      have hafter := hopening.text_eq.symm.trans hclosing.text_eq
      rw [← hbetween, ← List.append_assoc, List.append_assoc (x ++ _)] at hafter
      rw [List.append_cancel_left hafter, List.append_assoc]

end Region
end Transclusion
