import Transclusion.Proofs.Region.Enumeration
import Transclusion.Proofs.Region.Spans

/-!
This module contains what cleaning takes out of a text: for each opening marker that is not taken out
with an earlier region and has its closing marker behind it, the text from the line feeds before the
marker up to the line feed after that closing marker, and nothing else (`clean_exact`).
-/

namespace Transclusion
namespace Region

structure Parts where
  before : Text
  breaks : Text
  blanks : Text
  inside : Text
  ending : Text
  after : Text

def Parts.region (p : Parts) (name id : Text) : Text :=
  p.breaks ++ (p.blanks ++ (openingMarker name id ++ (p.inside ++ (closingMarker name id ++ p.ending))))

/-- The region of an opening marker in these parts of the text, if the region before it ends at
`limit`. -/
structure Complete (text : Text) (limit : Nat) (o : Opening) (r : Region) (p : Parts) : Prop where
  text_eq : text = p.before ++ (p.region o.name o.id ++ p.after)
  name_eq : r.name = o.name
  id_eq : r.id = o.id
  start_eq : r.start = p.before.length
  stop_eq : r.stop = r.start + (p.region o.name o.id).length
  marker_eq : o.start = r.start + p.breaks.length
  isBreak : ∀ c ∈ p.breaks, c = '\n'
  limit_le : limit ≤ p.before.length
  allBreaks : limit < p.before.length → p.before.getLast? ≠ some '\n'
  isIndent : ∀ c ∈ p.blanks, Text.isIndent c = true
  rest_eq : o.rest = p.inside ++ (closingMarker o.name o.id ++ (p.ending ++ p.after))
  first : ∀ u v, o.rest = u ++ (closingMarker o.name o.id ++ v) → p.inside.length ≤ u.length
  ending_eq : p.ending = ['\n'] ∨ (p.ending = [] ∧ p.after.head? ≠ some '\n')

theorem take_length_sub_rtakeWhile (p : Char → Bool) (before : Text)
    : before.take (before.length - (before.rtakeWhile p).length) = before.rdropWhile p := by
  have hlength := congrArg List.length (List.rdropWhile_append_rtakeWhile (p := p) (l := before))
  rw [List.length_append] at hlength
  have hcount : before.length - (before.rtakeWhile p).length = (before.rdropWhile p).length := by omega
  rw [hcount]
  exact (List.prefix_iff_eq_take.mp (List.rdropWhile_prefix p before)).symm

theorem mem_rtakeWhile_of_mem_drop {p : Char → Bool} {before : Text} {n : Nat} {c : Char}
    (hn : n ≤ (before.rtakeWhile p).length) (hc : c ∈ before.drop (before.length - n))
    : c ∈ before.rtakeWhile p := by
  have hsuffix : before.drop (before.length - n) <:+ before.rtakeWhile p := by
    apply List.suffix_of_suffix_length_le (List.drop_suffix _ before) (List.rtakeWhile_suffix p before)
    rw [List.length_drop]
    omega
  exact hsuffix.subset hc

theorem getLast?_rdropWhile_ne (before : Text)
    : (before.rdropWhile (· == '\n')).getLast? ≠ some '\n' := by
  intro h
  have hne : before.rdropWhile (· == '\n') ≠ [] := by
    rintro hnil
    rw [hnil] at h
    contradiction
  rw [List.getLast?_eq_getLast_of_ne_nil hne, Option.some.injEq] at h
  have := List.rdropWhile_last_not _ before hne
  rw [h] at this
  contradiction

theorem exists_ending (tail : Text)
    : ∃ ending after, tail = ending ++ after ∧
        (ending = ['\n'] ∨ (ending = [] ∧ after.head? ≠ some '\n')) ∧
        ending.length = if tail.head? == some '\n' then 1 else 0 := by
  cases tail with
  | nil => exact ⟨[], [], rfl, .inr ⟨rfl, by simp⟩, rfl⟩
  | cons c tail =>
    by_cases hc : c = '\n'
    . exact ⟨['\n'], tail, by rw [hc]; rfl, .inl rfl, by simp [hc]⟩
    . exact ⟨[], c :: tail, rfl, .inr ⟨rfl, by simpa using hc⟩, by simp [hc]⟩

theorem exists_of_regionStop?_eq_some {o : Opening} {stop : Nat} (h : o.regionStop? = some stop)
    : ∃ inside ending after,
        o.rest = inside ++ (closingMarker o.name o.id ++ (ending ++ after)) ∧
        stop = o.stop + (inside.length + (closingMarker o.name o.id).length + ending.length) ∧
        (∀ u v, o.rest = u ++ (closingMarker o.name o.id ++ v) → inside.length ≤ u.length) ∧
        (ending = ['\n'] ∨ (ending = [] ∧ after.head? ≠ some '\n')) := by
  unfold Opening.regionStop? at h
  dsimp only at h
  obtain ⟨i, hi, hstop⟩ := Option.map_eq_some_iff.mp h
  obtain ⟨inside, tail, hrest, hinside, hfirst⟩ := Text.exists_append_of_indexOf?_eq_some hi
  obtain ⟨ending, after, htail, hending, hlength⟩ := exists_ending tail
  have hdrop : o.rest.drop (i + (closingMarker o.name o.id).length) = tail := by
    rw [hrest, ← List.append_assoc]
    apply List.drop_left'
    rw [List.length_append, hinside]
  rw [hdrop] at hstop
  refine ⟨inside, ending, after, by rw [← htail, ← hrest], ?_, hfirst, hending⟩
  rw [hinside, hlength, ← hstop]
  split <;> rfl

theorem exists_complete {text : Text} {o : Opening} {cursor stop : Nat} (hstands : Stands text o)
    (hcursor : cursor ≤ o.start) (hstop : o.regionStop? = some stop)
    : ∃ p, Complete text cursor o {
        name := o.name
        id := o.id
        start := o.start - min o.breaks (o.start - cursor)
        stop } p := by
  cases hstands with
  | @intro before blanks name id rest htext hblanks hname hid =>
    obtain ⟨inside, ending, after, hrest, hstop, hfirst, hending⟩ := exists_of_regionStop?_eq_some hstop
    dsimp only at hcursor hrest hstop hfirst ⊢
    generalize hn : min (before.rtakeWhile (· == '\n')).length (before.length - cursor) = n
    have hrun := (List.rtakeWhile_suffix (· == '\n') before).length_le
    have hlength : (before.take (before.length - n)).length = before.length - n := by
      rw [List.length_take]
      omega
    refine ⟨{
      before := before.take (before.length - n)
      breaks := before.drop (before.length - n)
      blanks
      inside
      ending
      after }, ?_⟩
    constructor
    . dsimp only [Parts.region]
      rw [htext, hrest]
      conv =>
        lhs
        rw [← List.take_append_drop (before.length - n) before]
      simp only [List.append_assoc]
    . rfl
    . rfl
    . exact hlength.symm
    . simp only [Parts.region, List.length_append, List.length_drop]
      omega
    . simp only [List.length_drop]
      omega
    . intro c hc
      have := mem_rtakeWhile_of_mem_drop (p := (· == '\n')) (by omega) hc
      simpa using List.mem_rtakeWhile_imp this
    . dsimp only
      omega
    . dsimp only
      rw [hlength]
      intro hlt
      have hall : n = (before.rtakeWhile (· == '\n')).length := by omega
      rw [hall, take_length_sub_rtakeWhile]
      exact getLast?_rdropWhile_ne before
    . exact hblanks
    . exact hrest
    . exact hfirst
    . exact hending

def lastStop (cursor : Nat) : List Region → Nat
  | [] => cursor
  | r :: rs => lastStop r.stop rs

def RemovedIn (text : Text) (cursor : Nat) (rs : List Region) (o : Opening) (r : Region) : Prop :=
  ∃ earlier later p, rs = earlier ++ r :: later ∧ Complete text (lastStop cursor earlier) o r p

theorem RemovedIn.head {text : Text} {cursor : Nat} {rs : List Region} {o : Opening} {r : Region}
    {p : Parts} (h : Complete text cursor o r p) : RemovedIn text cursor (r :: rs) o r :=
  ⟨[], rs, p, rfl, h⟩

theorem RemovedIn.tail {text : Text} {cursor : Nat} {rs : List Region} {o : Opening} {r s : Region}
    (h : RemovedIn text r.stop rs o s) : RemovedIn text cursor (r :: rs) o s := by
  obtain ⟨earlier, later, p, hrs, hp⟩ := h
  exact ⟨r :: earlier, later, p, by rw [hrs]; rfl, hp⟩

theorem RemovedIn.closed {text : Text} {cursor : Nat} {rs : List Region} {o : Opening} {r : Region}
    (h : RemovedIn text cursor rs o r) : closingMarker o.name o.id <:+: o.rest := by
  obtain ⟨_, _, p, _, hp⟩ := h
  rw [hp.rest_eq, ← List.append_assoc]
  exact ⟨p.inside, p.ending ++ p.after, rfl⟩

variable {text : Text} {found : List Opening} {cursor : Nat}

def regionsFrom (cursor : Nat) (found : List Opening) : List Region :=
  (findings cursor found).filterMap Finding.region?

theorem regionsFrom_of_lt {o : Opening} (h : o.start < cursor)
    : regionsFrom cursor (o :: found) = regionsFrom cursor found := by
  rw [regionsFrom, findings, if_pos h]
  rfl

theorem regionsFrom_of_unclosed {o : Opening} (h : o.regionStop? = none)
    : regionsFrom cursor (o :: found) = regionsFrom cursor found := by
  unfold regionsFrom
  rw [findings]
  split
  . rfl
  . rw [h]
    rfl

theorem exists_regionsFrom_of_closed {o : Opening} {stop : Nat} (hstands : Stands text o)
    (hcursor : cursor ≤ o.start) (hstop : o.regionStop? = some stop) (found : List Opening)
    : ∃ r p, Complete text cursor o r p ∧
        regionsFrom cursor (o :: found) = r :: regionsFrom r.stop found := by
  obtain ⟨p, hp⟩ := exists_complete hstands hcursor hstop
  refine ⟨_, p, hp, ?_⟩
  unfold regionsFrom
  rw [findings, if_neg (by omega), hstop]
  rfl

theorem exists_removedIn_of_mem {r : Region} (hstands : ∀ o ∈ found, Stands text o)
    (h : r ∈ regionsFrom cursor found)
    : ∃ o ∈ found, RemovedIn text cursor (regionsFrom cursor found) o r := by
  induction found generalizing cursor with
  | nil => simp [regionsFrom, findings] at h
  | cons o found ih =>
    rw [List.forall_mem_cons] at hstands
    have hskip : regionsFrom cursor (o :: found) = regionsFrom cursor found →
        ∃ o' ∈ o :: found, RemovedIn text cursor (regionsFrom cursor (o :: found)) o' r := by
      intro heq
      rw [heq] at h ⊢
      obtain ⟨o', ho', hremoved⟩ := ih hstands.2 h
      exact ⟨o', List.mem_cons_of_mem _ ho', hremoved⟩
    by_cases hcursor : o.start < cursor
    . exact hskip (regionsFrom_of_lt hcursor)
    . cases hstop : o.regionStop? with
      | none => exact hskip (regionsFrom_of_unclosed hstop)
      | some stop =>
        obtain ⟨s, p, hp, heq⟩ :=
          exists_regionsFrom_of_closed hstands.1 (Nat.not_lt.mp hcursor) hstop found
        rw [heq] at h ⊢
        rcases List.mem_cons.mp h with rfl | h
        . exact ⟨o, List.mem_cons_self .., .head hp⟩
        . obtain ⟨o', ho', hremoved⟩ := ih hstands.2 h
          exact ⟨o', List.mem_cons_of_mem _ ho', hremoved.tail⟩

-- `hclear` is about the markers that are still to come; for those before, `cursor` says it.
theorem exists_removedIn_of_closed {o : Opening} (hstands : ∀ o ∈ found, Stands text o)
    (hsorted : found.Pairwise fun a b => a.start < b.start) (ho : o ∈ found) (hcursor : cursor ≤ o.start)
    (hclear : ∀ e ∈ found, ∀ r, RemovedIn text cursor (regionsFrom cursor found) e r →
      e.start < o.start → r.stop ≤ o.start)
    (hclosed : closingMarker o.name o.id <:+: o.rest)
    : ∃ r, RemovedIn text cursor (regionsFrom cursor found) o r := by
  induction found generalizing cursor with
  | nil => contradiction
  | cons first found ih =>
    rw [List.forall_mem_cons] at hstands
    rw [List.pairwise_cons] at hsorted
    have hskip : o ∈ found → regionsFrom cursor (first :: found) = regionsFrom cursor found →
        ∃ r, RemovedIn text cursor (regionsFrom cursor (first :: found)) o r := by
      intro ho heq
      rw [heq] at hclear ⊢
      exact ih hstands.2 hsorted.2 ho hcursor fun e he => hclear e (List.mem_cons_of_mem _ he)
    cases hstop : first.regionStop? with
    | none =>
      rcases List.mem_cons.mp ho with rfl | ho
      . exact absurd hclosed (regionStop?_eq_none_iff.mp hstop)
      . exact hskip ho (regionsFrom_of_unclosed hstop)
    | some stop =>
      by_cases hfirst : first.start < cursor
      . rcases List.mem_cons.mp ho with rfl | ho
        . omega
        . exact hskip ho (regionsFrom_of_lt hfirst)
      . obtain ⟨r, p, hp, heq⟩ :=
          exists_regionsFrom_of_closed hstands.1 (Nat.not_lt.mp hfirst) hstop found
        rw [heq] at hclear ⊢
        rcases List.mem_cons.mp ho with rfl | ho
        . exact ⟨r, .head hp⟩
        . have hr := hclear first (List.mem_cons_self ..) r (.head hp) (hsorted.1 o ho)
          obtain ⟨s, hs⟩ := ih hstands.2 hsorted.2 ho hr fun e he s hs =>
            hclear e (List.mem_cons_of_mem _ he) s hs.tail
          exact ⟨s, hs.tail⟩

theorem Stands.start_lt_stop {o : Opening} (h : Stands text o) : o.start < o.stop := by
  cases h with
  | @intro before blanks name id =>
    have := List.length_pos_iff.mpr (openingMarker_ne_nil name id)
    dsimp only
    omega

theorem Enumerates.stands {pos : Nat} (h : Enumerates text pos found)
    : ∀ o ∈ found, Stands text o ∧ pos ≤ o.start := by
  induction h with
  | done => simp
  | next hstands hpos _ _ ih =>
    rw [List.forall_mem_cons]
    refine ⟨⟨hstands, hpos⟩, ?_⟩
    intro o ho
    have := hstands.start_lt_stop
    have := (ih o ho).2
    exact ⟨(ih o ho).1, by omega⟩

theorem Enumerates.sorted {pos : Nat} (h : Enumerates text pos found)
    : found.Pairwise fun a b => a.start < b.start := by
  induction h with
  | done => exact .nil
  | next hstands _ _ hlater ih =>
    rw [List.pairwise_cons]
    refine ⟨?_, ih⟩
    intro o ho
    have := hstands.start_lt_stop
    have := (hlater.stands o ho).2
    omega

def Removed (text : Text) (o : Opening) (r : Region) : Prop :=
  RemovedIn text 0 (regions text) o r

def Covered (text : Text) (o : Opening) : Prop :=
  ∃ e ∈ openings text, ∃ r, Removed text e r ∧ e.start < o.start ∧ o.start < r.stop

theorem exists_removed_of_closed {o : Opening} (ho : o ∈ openings text) (hcovered : ¬ Covered text o)
    (hclosed : closingMarker o.name o.id <:+: o.rest) : ∃ r, Removed text o r := by
  have hfound := enumerates_openings text
  apply exists_removedIn_of_closed (fun o ho => (hfound.stands o ho).1) hfound.sorted ho (Nat.zero_le _)
    _ hclosed
  intro e he r hr hlt
  by_contra hstop
  exact hcovered ⟨e, he, r, hr, hlt, Nat.not_le.mp hstop⟩

/-- Cleaning takes out exactly the complete regions. What it leaves is the text outside the regions,
which are in range and one after the other; each of them is the region of a marker, with the parts that
it should have; and of the markers that do not begin inside an earlier region, which are all found
from the left, exactly those that are closed have one. -/
theorem clean_exact (text : Text)
    : Enumerates text 0 (openings text) ∧
        Ordered 0 text.length (regions text) ∧
        clean text = outside (regions text) 0 text ∧
        (clean text = text ↔ regions text = []) ∧
        (∀ r ∈ regions text, ∃ o ∈ openings text, Removed text o r) ∧
        ∀ o ∈ openings text, ¬ Covered text o →
          ((∃ r, Removed text o r) ↔ closingMarker o.name o.id <:+: o.rest) := by
  have hfound := enumerates_openings text
  have hstands : ∀ o ∈ openings text, Stands text o := fun o ho => (hfound.stands o ho).1
  refine ⟨hfound, ordered_regions text, clean_eq_outside text, clean_eq_self_iff, ?_, ?_⟩
  . intro r hr
    exact exists_removedIn_of_mem hstands hr
  . intro o ho hcovered
    constructor
    . intro ⟨r, hr⟩
      exact hr.closed
    . exact exists_removed_of_closed ho hcovered

end Region
end Transclusion
