import Mathlib.Logic.Function.Iterate
import Transclusion.Proofs.Region.Scan

/-!
This module contains where the regions of a text lie: in range, one after the other, and none of them
empty (`ordered_regions`). What cleaning leaves is the text outside them (`clean_eq_outside`). So every
round of cleaning that finds something makes the text shorter, and
a second round changes nothing exactly if it finds no marker with its closing marker behind it
(`clean_clean_eq_iff`).
-/

namespace Transclusion
namespace Region

def Ordered (cursor limit : Nat) : List Region → Prop
  | [] => True
  | r :: rs => cursor ≤ r.start ∧ r.start < r.stop ∧ r.stop ≤ limit ∧ Ordered r.stop limit rs

theorem bounds_of_mem_go {text : Text} {skip breaks blanks offset : Nat} {o : Opening}
    (h : o ∈ openings.go skip breaks blanks offset text)
    : o.start < o.stop ∧ o.stop ≤ offset + text.length := by
  induction text generalizing skip breaks blanks offset with
  | nil => cases skip <;> simp [openings.go] at h
  | cons c text ih =>
    have htail : ∀ {skip breaks blanks}, o ∈ openings.go skip breaks blanks (offset + 1) text →
        o.start < o.stop ∧ o.stop ≤ offset + (c :: text).length := by
      intro skip breaks blanks h
      rw [List.length_cons]
      have := ih h
      omega
    cases skip with
    | succ skip =>
      rw [openings.go] at h
      exact htail h
    | zero =>
      cases hhere : openingAt? (c :: text) with
      | none =>
        rw [go_cons_of_none hhere] at h
        exact htail h
      | some marked =>
        obtain ⟨name, id⟩ := marked
        rw [go_cons_of_some hhere] at h
        cases List.mem_cons.mp h with
        | inl h =>
          obtain ⟨_, _, rest, htext⟩ := openingAt?_eq_some_iff.mp hhere
          have hlength := congrArg List.length htext
          have hpos := List.length_pos_iff.mpr (openingMarker_ne_nil name id)
          rw [List.length_append] at hlength
          rw [h, openingHere]
          dsimp only
          omega
        | inr h => exact htail h

theorem bounds_of_mem_openings {text : Text} {o : Opening} (h : o ∈ openings text)
    : o.start < o.stop ∧ o.stop ≤ text.length := by
  have := bounds_of_mem_go h
  omega

theorem regionStop?_bounds {text : Text} {o : Opening} (h : o ∈ openings text) {stop : Nat}
    (hstop : o.regionStop? = some stop) : o.start < stop ∧ stop ≤ text.length := by
  have hbounds := bounds_of_mem_openings h
  have hrest := congrArg List.length (rest_of_mem_openings h)
  rw [List.length_drop] at hrest
  unfold Opening.regionStop? at hstop
  obtain ⟨i, hi, hstop⟩ := Option.map_eq_some_iff.mp hstop
  have hlength := Text.length_add_le_of_indexOf?_eq_some hi
  dsimp only at hstop
  split at hstop
  next hbreak =>
    have hne : o.rest.drop (i + (closingMarker o.name o.id).length) ≠ [] := by
      intro hnil
      rw [hnil] at hbreak
      contradiction
    have := List.length_pos_iff.mpr hne
    rw [List.length_drop] at this
    omega
  next => omega

theorem ordered_findings {text : Text} {found : List Opening} (h : ∀ o ∈ found, o ∈ openings text)
    (cursor : Nat) : Ordered cursor text.length ((findings cursor found).filterMap Finding.region?) := by
  induction found generalizing cursor with
  | nil => trivial
  | cons o found ih =>
    have ih := ih fun other hother => h other (by simp [hother])
    unfold findings
    split
    next => exact ih cursor
    next hcursor =>
      split
      next => exact ih cursor
      next stop hstop =>
        have hbounds := regionStop?_bounds (h o (by simp)) hstop
        rw [List.filterMap_cons]
        dsimp only [Finding.region?]
        refine ⟨?_, ?_, hbounds.2, ih stop⟩
        . dsimp only
          omega
        . dsimp only
          omega

theorem ordered_regions (text : Text) : Ordered 0 text.length (regions text) :=
  ordered_findings (fun _ h => h) 0

def covered : List Region → Nat
  | [] => 0
  | r :: rs => r.stop - r.start + covered rs

theorem length_cut {cursor : Nat} {text : Text} {rs : List Region}
    (h : Ordered cursor (cursor + text.length) rs)
    : (cut cursor text rs).length + covered rs = text.length := by
  induction rs generalizing cursor text with
  | nil => rfl
  | cons r rs ih =>
    obtain ⟨hstart, hlt, hstop, hrest⟩ := h
    have hdrop : (text.drop (r.stop - cursor)).length = cursor + text.length - r.stop := by
      rw [List.length_drop]
      omega
    have hrest : Ordered r.stop (r.stop + (text.drop (r.stop - cursor)).length) rs := by
      rw [hdrop]
      have : r.stop + (cursor + text.length - r.stop) = cursor + text.length := by omega
      rw [this]
      exact hrest
    have ih := ih hrest
    rw [cut, List.length_append, List.length_take, covered]
    omega

theorem length_clean (text : Text)
    : (clean text).length + covered (regions text) = text.length := by
  unfold clean
  apply length_cut
  rw [Nat.zero_add]
  exact ordered_regions text

def covers (rs : List Region) (i : Nat) : Bool :=
  rs.any fun r => r.start ≤ i && i < r.stop

def outside (rs : List Region) (offset : Nat) (text : Text) : Text :=
  ((text.zipIdx offset).filter fun p => !covers rs p.2).map Prod.fst

theorem outside_append (rs : List Region) (offset : Nat) (a b : Text)
    : outside rs offset (a ++ b) = outside rs offset a ++ outside rs (offset + a.length) b := by
  unfold outside
  rw [List.zipIdx_append, List.filter_append, List.map_append]

theorem outside_of_not_covers {rs : List Region} {offset : Nat} {text : Text}
    (h : ∀ i, offset ≤ i → i < offset + text.length → covers rs i = false)
    : outside rs offset text = text := by
  unfold outside
  rw [List.filter_eq_self.mpr, List.zipIdx_map_fst]
  intro p hp
  rw [h p.2 (List.le_snd_of_mem_zipIdx hp) (List.snd_lt_add_of_mem_zipIdx hp)]
  rfl

theorem outside_of_covers {rs : List Region} {offset : Nat} {text : Text}
    (h : ∀ i, offset ≤ i → i < offset + text.length → covers rs i = true)
    : outside rs offset text = [] := by
  unfold outside
  rw [List.filter_eq_nil_iff.mpr]
  . rfl
  . intro p hp
    rw [h p.2 (List.le_snd_of_mem_zipIdx hp) (List.snd_lt_add_of_mem_zipIdx hp)]
    simp

theorem outside_congr {rs rs' : List Region} {offset : Nat} {text : Text}
    (h : ∀ i, offset ≤ i → covers rs i = covers rs' i) : outside rs offset text = outside rs' offset text := by
  unfold outside
  congr 1
  apply List.filter_congr
  intro p hp
  rw [h p.2 (List.le_snd_of_mem_zipIdx hp)]

theorem covers_cons (r : Region) (rs : List Region) (i : Nat)
    : covers (r :: rs) i = (decide (r.start ≤ i ∧ i < r.stop) || covers rs i) := by
  unfold covers
  rw [List.any_cons, Bool.decide_and]

theorem not_covers_of_ordered {cursor limit i : Nat} {rs : List Region} (h : Ordered cursor limit rs)
    (hi : i < cursor) : covers rs i = false := by
  induction rs generalizing cursor with
  | nil => rfl
  | cons r rs ih =>
    obtain ⟨_, _, _, hrest⟩ := h
    rw [covers_cons, ih hrest (by omega), decide_eq_false (by omega)]
    rfl

theorem exists_parts {cursor : Nat} {text : Text} {r : Region} (hstart : cursor ≤ r.start)
    (hlt : r.start < r.stop) (hstop : r.stop ≤ cursor + text.length)
    : ∃ a b c, text = a ++ (b ++ c) ∧ a.length = r.start - cursor ∧ b.length = r.stop - r.start := by
  refine ⟨text.take (r.start - cursor), (text.drop (r.start - cursor)).take (r.stop - r.start),
    (text.drop (r.start - cursor)).drop (r.stop - r.start), ?_, ?_, ?_⟩
  . rw [List.take_append_drop, List.take_append_drop]
  . rw [List.length_take]
    omega
  . rw [List.length_take, List.length_drop]
    omega

section Outside

variable {cursor limit : Nat} {r : Region} {rs : List Region} {a b c : Text}

theorem not_covers_before (hrest : Ordered r.stop limit rs) (hlt : r.start < r.stop)
    {i : Nat} (hi : i < r.start) : covers (r :: rs) i = false := by
  rw [covers_cons, not_covers_of_ordered hrest (by omega), decide_eq_false (by omega)]
  rfl

theorem covers_cons_of_le {i : Nat} (hi : r.stop ≤ i) : covers (r :: rs) i = covers rs i := by
  rw [covers_cons, decide_eq_false (by omega), Bool.false_or]

theorem outside_cons_of_le {i : Nat} (hi : r.stop ≤ i) (text : Text)
    : outside (r :: rs) i text = outside rs i text :=
  outside_congr fun _ hj => covers_cons_of_le (by omega)

theorem outside_cons (hrest : Ordered r.stop limit rs) (hlt : r.start < r.stop)
    (hstart : cursor ≤ r.start) (ha : a.length = r.start - cursor) (hb : b.length = r.stop - r.start)
    : outside (r :: rs) cursor (a ++ (b ++ c)) = a ++ outside rs r.stop c := by
  have hkept : outside (r :: rs) cursor a = a := by
    apply outside_of_not_covers
    intro i _ hi
    exact not_covers_before hrest hlt (by omega)
  have hremoved : outside (r :: rs) (cursor + a.length) b = [] := by
    apply outside_of_covers
    intro i hi hi'
    rw [covers_cons, decide_eq_true (by omega), Bool.true_or]
  have hoffset : cursor + a.length + b.length = r.stop := by omega
  rw [outside_append, outside_append, hoffset, hkept, hremoved, outside_cons_of_le (Nat.le_refl _),
    List.nil_append]

end Outside

theorem cut_eq_outside {cursor : Nat} {text : Text} {rs : List Region}
    (h : Ordered cursor (cursor + text.length) rs) : cut cursor text rs = outside rs cursor text := by
  induction rs generalizing cursor text with
  | nil =>
    rw [cut, outside_of_not_covers]
    intro _ _ _
    rfl
  | cons r rs ih =>
    obtain ⟨hstart, hlt, hstop, hrest⟩ := h
    obtain ⟨a, b, c, rfl, ha, hb⟩ := exists_parts hstart hlt hstop
    have hdrop : (a ++ (b ++ c)).drop (r.stop - cursor) = c := by
      rw [← List.append_assoc]
      apply List.drop_left'
      rw [List.length_append]
      omega
    have hlimit : cursor + (a ++ (b ++ c)).length = r.stop + c.length := by
      rw [List.length_append, List.length_append]
      omega
    rw [cut, List.take_left' ha, hdrop, outside_cons hrest hlt hstart ha hb]
    rw [hlimit] at hrest
    rw [ih hrest]

theorem clean_eq_outside (text : Text) : clean text = outside (regions text) 0 text := by
  apply cut_eq_outside
  rw [Nat.zero_add]
  exact ordered_regions text

theorem length_clean_lt {text : Text} (h : regions text ≠ []) : (clean text).length < text.length := by
  have hlength := length_clean text
  have hordered := ordered_regions text
  obtain ⟨r, rs, hrs⟩ := List.exists_cons_of_ne_nil h
  rw [hrs] at hlength hordered
  obtain ⟨_, hlt, _⟩ := hordered
  rw [covered] at hlength
  omega

theorem clean_eq_self_iff {text : Text} : clean text = text ↔ regions text = [] := by
  constructor
  . intro h
    by_contra hne
    have := length_clean_lt hne
    rw [h] at this
    omega
  . exact clean_of_regions_eq_nil

theorem exists_regions_iterate_clean_eq_nil (text : Text)
    : ∃ n, n ≤ text.length ∧ regions (clean^[n] text) = [] := by
  induction hlength : text.length using Nat.strongRecOn generalizing text with
  | _ length ih =>
    by_cases h : regions text = []
    . exact ⟨0, Nat.zero_le _, h⟩
    . have hlt := length_clean_lt h
      obtain ⟨n, hn, hregions⟩ := ih (clean text).length (by omega) (clean text) rfl
      exact ⟨n + 1, by omega, hregions⟩

theorem regionStop?_eq_none_iff {o : Opening}
    : o.regionStop? = none ↔ ¬ closingMarker o.name o.id <:+: o.rest := by
  unfold Opening.regionStop?
  dsimp only
  rw [Option.map_eq_none_iff, Text.indexOf?_eq_none_iff]

-- Up to the first region nothing is skipped.
theorem filterMap_findings_eq_nil_iff {found : List Opening}
    : (findings 0 found).filterMap Finding.region? = [] ↔ ∀ o ∈ found, o.regionStop? = none := by
  induction found with
  | nil => simp [findings]
  | cons o found ih =>
    unfold findings
    rw [if_neg (by omega), List.forall_mem_cons]
    split
    next hnone => simpa [List.filterMap_cons, Finding.region?, hnone] using ih
    next stop hstop => simp [Finding.region?, hstop]

theorem regions_eq_nil_iff {text : Text}
    : regions text = [] ↔ ∀ o ∈ openings text, ¬ closingMarker o.name o.id <:+: o.rest := by
  simp only [← regionStop?_eq_none_iff]
  exact filterMap_findings_eq_nil_iff

/-- Cleaning again changes nothing, and finds nothing, exactly if no opening marker of the cleaned text
has its closing marker behind it. -/
theorem clean_clean_eq_iff (text : Text)
    : (clean (clean text) = clean text ∧ regions (clean text) = []) ↔
        ∀ o ∈ openings (clean text), ¬ closingMarker o.name o.id <:+: o.rest := by
  rw [clean_eq_self_iff, and_self, regions_eq_nil_iff]

def interrupted : Text :=
  "<!-- inc" ++ (openingMarker "x" "y" ++ closingMarker "x" "y") ++ "luded \"a\" \"1\" -->" ++
    closingMarker "a" "1"

theorem clean_clean_interrupted
    : clean (clean interrupted) ≠ clean interrupted ∧ regions (clean interrupted) ≠ [] := by
  decide +kernel

end Region
end Transclusion
