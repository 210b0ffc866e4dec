import Transclusion.Proofs.Directive.Lines
import Transclusion.Proofs.Region.Marker

/-!
This module contains what the search for directives finds: from the left, each time the next place
where a directive can begin, up to the first `-->` after its keyword (`findDirectives_exact`). The lines
on which generated regions have their markers are never among them.
-/

namespace Transclusion
namespace Directive

def lead : Text := commentLead ++ includeLead

def BeginsAt (text : Text) (p : Nat) : Prop :=
  ∃ inner rest, text.drop p = lead ++ (inner ++ (commentEnd ++ rest)) ∧ '\n' ∉ inner

def EndsFirst (inner rest : Text) : Prop :=
  ∀ u v, inner ++ (commentEnd ++ rest) = u ++ (commentEnd ++ v) → inner.length ≤ u.length

theorem length_le_of_upToCommentEnd_eq_some {text inner u v : Text}
    (h : upToCommentEnd text = some inner) (huv : text = u ++ (commentEnd ++ v))
    : inner.length ≤ u.length := by
  induction text generalizing inner u with
  | nil => simp [upToCommentEnd] at h
  | cons c text ih =>
    by_cases hc : c = '\n'
    . rw [hc, upToCommentEnd] at h
      cases h
    . rw [upToCommentEnd] at h
      . split at h
        next =>
          cases h
          exact Nat.zero_le _
        next hends =>
          obtain ⟨later, hlater, rfl⟩ := Option.map_eq_some_iff.mp h
          cases u with
          | nil => exact absurd (List.isPrefixOf_iff_prefix.mpr ⟨v, huv.symm⟩) hends
          | cons d u =>
            rw [List.cons_append, List.cons.injEq] at huv
            exact Nat.succ_le_succ (ih hlater huv.2)
      . exact hc

theorem exists_upToCommentEnd_eq_some {u : Text} (h : '\n' ∉ u) (v : Text)
    : ∃ inner, upToCommentEnd (u ++ (commentEnd ++ v)) = some inner := by
  induction u with
  | nil => exact ⟨[], rfl⟩
  | cons c u ih =>
    rw [List.mem_cons, not_or] at h
    obtain ⟨inner, hinner⟩ := ih h.2
    rw [List.cons_append, upToCommentEnd]
    . split
      next => exact ⟨[], rfl⟩
      next => exact ⟨c :: inner, by rw [hinner]; rfl⟩
    . exact Ne.symm h.1

theorem exists_of_parametersAt?_eq_some {text parameters : Text}
    (h : parametersAt? text = some parameters)
    : ∃ inner rest, parameters = includeLead ++ inner ∧
        text = lead ++ (inner ++ (commentEnd ++ rest)) ∧ '\n' ∉ inner ∧ EndsFirst inner rest := by
  unfold parametersAt? at h
  split at h
  next after hafter =>
    obtain ⟨inner, hinner, rfl⟩ := Option.map_eq_some_iff.mp h
    obtain ⟨rest, rfl⟩ := append_of_upToCommentEnd_eq_some hinner
    rw [Text.isPrefixOf?_eq_some_iff, List.append_assoc inner] at hafter
    refine ⟨inner, rest, rfl, hafter, newline_not_mem_of_upToCommentEnd_eq_some hinner, ?_⟩
    intro u v huv
    exact length_le_of_upToCommentEnd_eq_some hinner (by rw [List.append_assoc, huv])
  next => cases h

theorem beginsAt_iff {text : Text} {p : Nat}
    : BeginsAt text p ↔ ∃ parameters, parametersAt? (text.drop p) = some parameters := by
  constructor
  . intro ⟨inner, rest, htext, hnewline⟩
    obtain ⟨inner', hinner'⟩ := exists_upToCommentEnd_eq_some hnewline rest
    refine ⟨includeLead ++ inner', ?_⟩
    have hlead := Text.isPrefixOf?_eq_some_iff.mpr htext
    rw [lead] at hlead
    rw [parametersAt?, hlead]
    dsimp only
    rw [hinner', Option.map_some]
  . intro ⟨parameters, h⟩
    obtain ⟨inner, rest, -, htext, hnewline, -⟩ := exists_of_parametersAt?_eq_some h
    exact ⟨inner, rest, htext, hnewline⟩

theorem EndsFirst.commentEnd_not_infix {inner rest : Text} (h : EndsFirst inner rest)
    : ¬ commentEnd <:+: includeLead ++ inner := by
  intro ⟨a, b, hab⟩
  have hab : includeLead ++ inner = a ++ '-' :: ('-' :: '>' :: b) := by
    rw [← hab]
    simp [commentEnd]
  obtain ⟨u, -, hinner⟩ := Text.exists_append_of_not_mem hab (by decide)
  have hlength := h u (b ++ (commentEnd ++ rest)) (by rw [hinner]; simp [commentEnd])
  rw [hinner, List.length_append, List.length_cons] at hlength
  omega

end Directive

open Directive

/-! ## One directive -/

structure IsMatch (text : Text) (limit : Nat) (l : Located) : Prop where
  begins : BeginsAt text l.start
  limit_le : limit ≤ l.start
  start_lt : l.start < l.stop
  stop_le : l.stop ≤ text.length
  ends : ∃ p, l.start + lead.length ≤ p ∧ commentEnd <+: text.drop p ∧ l.stop = p + commentEnd.length
  first : ∀ p, l.start + lead.length ≤ p → commentEnd <+: text.drop p → l.stop ≤ p + commentEnd.length
  text_eq : l.directive.text = Text.slice text l.start l.stop
  parameters_eq : l.directive.parameters
    = Text.slice text (l.start + commentLead.length) (l.stop - commentEnd.length)
  newline_not_mem : '\n' ∉ l.directive.parameters
  commentEnd_not_infix : ¬ commentEnd <:+: l.directive.parameters
  indent_suffix : l.directive.indent <:+ Text.slice text limit l.start
  isIndent : ∀ c ∈ l.directive.indent, Text.isIndent c = true
  longest : ∀ run, run <:+ Text.slice text limit l.start → (∀ c ∈ run, Text.isIndent c = true) →
    run.length ≤ l.directive.indent.length

theorem Outline.indentOf_suffix (before : Text) : indentOf before <:+ before.reverse := by
  unfold indentOf
  rw [List.reverse_suffix]
  exact List.takeWhile_prefix _

theorem Outline.length_le_indentOf {before run : Text} (hrun : run <:+ before.reverse)
    (hindent : ∀ c ∈ run, Text.isIndent c = true) : run.length ≤ (indentOf before).length := by
  obtain ⟨front, hfront⟩ := hrun
  have hbefore : before = run.reverse ++ front.reverse := by
    rw [← List.reverse_append, hfront, List.reverse_reverse]
  unfold indentOf
  rw [hbefore, List.takeWhile_append_of_pos, List.length_reverse, List.length_append,
    List.length_reverse]
  . exact Nat.le_add_right _ _
  . intro c hc
    exact hindent c (List.mem_reverse.mp hc)

theorem Directive.length_text (indent inner : Text)
    : (Directive.mk indent (includeLead ++ inner)).text.length
        =
      lead.length + inner.length + commentEnd.length := by
  simp only [Directive.text, lead, List.length_append]
  omega

theorem Directive.text_append (indent inner rest : Text)
    : (Directive.mk indent (includeLead ++ inner)).text ++ rest
        =
      lead ++ (inner ++ (commentEnd ++ rest)) := by
  simp [Directive.text, lead]

theorem isMatch_of_endsFirst (done before : Text) {inner rest : Text} (hnewline : '\n' ∉ inner)
    (hfirst : EndsFirst inner rest)
    : IsMatch (done ++ (before.reverse ++ (lead ++ (inner ++ (commentEnd ++ rest))))) done.length {
        directive := { indent := Outline.indentOf before, parameters := includeLead ++ inner }
        start := done.length + before.length
        stop := done.length + before.length +
          (Directive.mk (Outline.indentOf before) (includeLead ++ inner)).text.length } := by
  have hdrop : ∀ n, (done ++ (before.reverse ++ (lead ++ (inner ++ (commentEnd ++ rest))))).drop
      (done.length + before.length + n) = (lead ++ (inner ++ (commentEnd ++ rest))).drop n := by
    intro n
    have hlength : done.length + before.length = (done ++ before.reverse).length := by
      rw [List.length_append, List.length_reverse]
    rw [← List.append_assoc, hlength, List.drop_length_add_append]
  have hdrop' : ∀ n, (done ++ (before.reverse ++ (lead ++ (inner ++ (commentEnd ++ rest))))).drop
      (done.length + before.length + lead.length + n) = (inner ++ (commentEnd ++ rest)).drop n := by
    intro n
    rw [Nat.add_assoc _ lead.length, hdrop, List.drop_length_add_append]
  constructor
  . exact ⟨inner, rest, hdrop 0, hnewline⟩
  . exact Nat.le_add_right _ _
  . have := List.length_pos_iff.mpr
      (Directive.text_ne_nil (Directive.mk (Outline.indentOf before) (includeLead ++ inner)))
    dsimp only
    omega
  . rw [← Directive.text_append (Outline.indentOf before)]
    simp only [List.length_append, List.length_reverse]
    omega
  . refine ⟨done.length + before.length + lead.length + inner.length, Nat.le_add_right _ _, ?_, ?_⟩
    . rw [hdrop', List.drop_left]
      exact List.prefix_append _ _
    . dsimp only
      rw [Directive.length_text]
      omega
  . intro p hp ⟨v, hv⟩
    obtain ⟨n, rfl⟩ := Nat.exists_eq_add_of_le hp
    dsimp only at hv ⊢
    rw [hdrop'] at hv
    have hle := hfirst ((inner ++ (commentEnd ++ rest)).take n) v (by rw [hv, List.take_append_drop])
    rw [List.length_take] at hle
    rw [Directive.length_text]
    omega
  . rw [← Directive.text_append (Outline.indentOf before), ← List.append_assoc]
    apply (Text.slice_append ?_ ?_).symm
    all_goals rw [List.length_append, List.length_reverse]
  . have hparts : done ++ (before.reverse ++ (lead ++ (inner ++ (commentEnd ++ rest))))
        = (done ++ (before.reverse ++ commentLead)) ++
          ((includeLead ++ inner) ++ (commentEnd ++ rest)) := by
      simp [lead]
    rw [hparts, Directive.length_text, lead]
    apply (Text.slice_append ?_ ?_).symm
    all_goals
      simp only [List.length_append, List.length_reverse]
      omega
  . dsimp only
    rw [List.mem_append, not_or]
    exact ⟨by decide, hnewline⟩
  . exact hfirst.commentEnd_not_infix
  . rw [Text.slice_append rfl (by rw [List.length_reverse])]
    exact Outline.indentOf_suffix before
  . intro c hc
    exact List.all_eq_true.mp List.all_takeWhile c (List.mem_reverse.mp hc)
  . intro run hrun hindent
    rw [Text.slice_append rfl (by rw [List.length_reverse])] at hrun
    exact Outline.length_le_indentOf hrun hindent

/-! ## All directives -/

inductive Finds (text : Text) : Nat → List Located → Prop
  | done {limit : Nat} (h : ∀ p, limit ≤ p → ¬ BeginsAt text p) : Finds text limit []
  | next {limit : Nat} {l : Located} {later : List Located} (hmatch : IsMatch text limit l)
      (hgap : ∀ p, limit ≤ p → p < l.start → ¬ BeginsAt text p) (hlater : Finds text l.stop later)
      : Finds text limit (l :: later)

-- What is passed ends with the text since the last directive; where characters of that directive are
-- still to be skipped, nothing has come since.
theorem finds_go {skip limit : Nat} {passed before rest : Text} (hskip : skip = 0 ∨ before = [])
    (hlimit : limit + before.length = passed.length + skip) (hbefore : before.reverse <:+ passed)
    (hgap : ∀ p, limit ≤ p → p < passed.length → ¬ BeginsAt (passed ++ rest) p)
    : Finds (passed ++ rest) limit (locate limit (Outline.ofText.go skip before rest).pieces) := by
  induction rest generalizing skip limit passed before with
  | nil =>
    have hpieces : (Outline.ofText.go skip before []).pieces = [] := by
      cases skip <;> rfl
    rw [hpieces, locate]
    apply Finds.done
    intro p hp hbegins
    by_cases hpassed : p < passed.length
    . exact hgap p hp hpassed hbegins
    . obtain ⟨inner, rest, htext, -⟩ := hbegins
      rw [List.append_nil, List.drop_eq_nil_of_le (Nat.not_lt.mp hpassed)] at htext
      cases htext
  | cons c rest ih =>
    rw [List.append_cons] at hgap ⊢
    cases skip with
    | succ skip =>
      have hnil : before = [] := hskip.resolve_left (by simp)
      rw [Outline.ofText.go]
      apply ih (.inr hnil)
      . rw [hlimit, List.length_append, List.length_singleton]
        omega
      . rw [hnil]
        exact List.nil_suffix
      . intro p hp hpassed
        apply hgap p hp
        rw [hnil, List.length_nil] at hlimit
        rw [List.length_append, List.length_singleton] at hpassed
        omega
    | zero =>
      have hdrop : (passed ++ [c] ++ rest).drop passed.length = c :: rest := by
        rw [← List.append_cons, List.drop_left]
      rw [Outline.ofText.go]
      split
      next parameters hparameters =>
        obtain ⟨inner, after, rfl, htext, hnewline, hfirst⟩ := exists_of_parametersAt?_eq_some hparameters
        obtain ⟨done, rfl⟩ := hbefore
        have hlength := List.length_pos_iff.mpr
          (text_ne_nil (Directive.mk (Outline.indentOf before) (includeLead ++ inner)))
        have hmatch := isMatch_of_endsFirst done before hnewline hfirst
        rw [← htext, ← List.append_assoc, List.append_cons] at hmatch
        rw [List.length_append, List.length_reverse, Nat.add_zero, Nat.add_right_cancel_iff] at hlimit
        rw [locate, hlimit, List.length_reverse]
        apply Finds.next hmatch
        . intro p hp hlt
          apply hgap p (by omega)
          rw [List.length_append, List.length_reverse]
          exact hlt
        . apply ih (.inr rfl)
          . simp only [List.length_append, List.length_reverse, List.length_singleton, List.length_nil]
            omega
          . exact List.nil_suffix
          . intro p hp hpassed
            simp only [List.length_append, List.length_reverse, List.length_singleton] at hpassed
            dsimp only at hp
            omega
      next hnone =>
        apply ih (.inl rfl)
        . rw [List.length_cons, List.length_append, List.length_singleton]
          omega
        . obtain ⟨done, rfl⟩ := hbefore
          rw [List.reverse_cons, List.append_assoc]
          exact List.suffix_append _ _
        . intro p hp hpassed
          by_cases hp' : p < passed.length
          . exact hgap p hp hp'
          . rw [List.length_append, List.length_singleton] at hpassed
            obtain rfl : p = passed.length := by omega
            rw [beginsAt_iff, hdrop, hnone]
            simp

variable {text : Text} {limit : Nat} {found : List Located}

theorem Finds.exists_isMatch (h : Finds text limit found)
    : ∀ l ∈ found, ∃ limit', limit ≤ limit' ∧ IsMatch text limit' l := by
  induction h with
  | done => simp
  | next hmatch _ _ ih =>
    rw [List.forall_mem_cons]
    refine ⟨⟨_, Nat.le_refl _, hmatch⟩, ?_⟩
    intro l hl
    obtain ⟨limit', hle, hl⟩ := ih l hl
    have := hmatch.limit_le
    have := hmatch.start_lt
    exact ⟨limit', by omega, hl⟩

theorem Finds.pairwise (h : Finds text limit found)
    : found.Pairwise fun a b => a.start < a.stop ∧ a.stop ≤ b.start := by
  induction h with
  | done => exact .nil
  | next hmatch _ hlater ih =>
    rw [List.pairwise_cons]
    refine ⟨?_, ih⟩
    intro l hl
    obtain ⟨limit', hle, hl⟩ := hlater.exists_isMatch l hl
    exact ⟨hmatch.start_lt, Nat.le_trans hle hl.limit_le⟩

theorem Finds.exists_covers {p : Nat} (h : Finds text limit found) (hp : limit ≤ p)
    (hbegins : BeginsAt text p)
    : ∃ l ∈ found, l.start = p ∨ (l.start < p ∧ p < l.stop) := by
  induction h with
  | done hnone => exact absurd hbegins (hnone p hp)
  | @next _ l _ hmatch hgap _ ih =>
    by_cases hstop : l.stop ≤ p
    . obtain ⟨l', hl', hcovers⟩ := ih hstop
      exact ⟨l', List.mem_cons_of_mem _ hl', hcovers⟩
    . refine ⟨l, List.mem_cons_self .., ?_⟩
      by_cases hstart : p < l.start
      . exact absurd hbegins (hgap p hp hstart)
      . omega

theorem finds_findDirectives (text : Text) : Finds text 0 (findDirectives text) := by
  have hgo : Finds ([] ++ text) 0 (locate 0 (Outline.ofText.go 0 [] text).pieces) := by
    apply finds_go (.inl rfl) rfl
    . exact List.suffix_rfl
    . intro p _ hp
      exact absurd hp (Nat.not_lt_zero p)
  exact hgo

/-! ## Lines with markers -/

structure IsLine (text before line after : Text) : Prop where
  text_eq : text = before ++ (line ++ after)
  newline_not_mem : '\n' ∉ line
  starts : before = [] ∨ ∃ earlier, before = earlier ++ ['\n']
  ends : after = [] ∨ ∃ later, after = '\n' :: later

def IsMarkerLine (line : Text) : Prop :=
  ∃ blanks marker blanks' name id, line = blanks ++ (marker ++ blanks') ∧
    (∀ c ∈ blanks ++ blanks', Text.isBlank c = true) ∧ '<' ∉ name ∧ '<' ∉ id ∧
    (marker = Region.openingMarker name id ∨ marker = Region.closingMarker name id)

theorem not_lead_prefix_append {words : Text} (hlength : lead.length ≤ words.length)
    (h : ¬ lead <+: words) (rest : Text) : ¬ lead <+: words ++ rest :=
  fun hlead => h (List.prefix_of_prefix_length_le hlead (List.prefix_append words rest) hlength)

theorem exists_inside {name id marker : Text} (hname : '<' ∉ name) (hid : '<' ∉ id)
    (h : marker = Region.openingMarker name id ∨ marker = Region.closingMarker name id)
    : ∃ inside, marker = '<' :: inside ∧ '<' ∉ inside ∧ ∀ rest, ¬ lead <+: marker ++ rest := by
  have hparts : '<' ∉ Region.quotedParts name id Region.markerEnd := by
    simp [Region.quotedParts, Region.markerEnd, hname, hid]
  rcases h with rfl | rfl
  . have hmarker := Region.openingMarker_append name id []
    rw [List.append_nil, List.append_nil] at hmarker
    refine ⟨Region.openingWords.tail ++ Region.quotedParts name id Region.markerEnd, hmarker, ?_, ?_⟩
    . rw [List.mem_append, not_or]
      exact ⟨by decide, hparts⟩
    . intro rest
      rw [Region.openingMarker_append]
      exact not_lead_prefix_append (by decide) (by decide) _
  . have hmarker := Region.closingMarker_append name id []
    rw [List.append_nil, List.append_nil] at hmarker
    refine ⟨Region.closingWords.tail ++ Region.quotedParts name id Region.markerEnd, hmarker, ?_, ?_⟩
    . rw [List.mem_append, not_or]
      exact ⟨by decide, hparts⟩
    . intro rest
      rw [Region.closingMarker_append]
      exact not_lead_prefix_append (by decide) (by decide) _

-- The only `<` of the line begins the marker, where the lead of a directive does not stand.
theorem IsMarkerLine.not_beginsAt {before line after : Text} (h : IsMarkerLine line) {p : Nat}
    (hp : before.length ≤ p) (hlt : p < before.length + line.length)
    : ¬ BeginsAt (before ++ (line ++ after)) p := by
  obtain ⟨blanks, marker, blanks', name, id, rfl, hblanks, hname, hid, hmarker⟩ := h
  obtain ⟨inside, hinside, hlone, hlead⟩ := exists_inside hname hid hmarker
  obtain ⟨k, rfl⟩ := Nat.exists_eq_add_of_le hp
  intro ⟨inner, rest, hbegins, _⟩
  have hnone : '<' ∉ blanks ++ blanks' := fun hmem => absurd (hblanks '<' hmem) (by decide)
  rw [List.mem_append, not_or] at hnone
  rw [List.drop_length_add_append, List.drop_append_of_le_length (by omega)] at hbegins
  obtain ⟨c, x, hdrop⟩ := List.exists_cons_of_ne_nil
    (List.ne_nil_of_length_pos (l := (blanks ++ (marker ++ blanks')).drop k)
      (by rw [List.length_drop]; omega))
  have hc : c = '<' := by
    rw [hdrop] at hbegins
    exact (List.cons.inj hbegins).1
  rw [hc] at hdrop
  have hline := List.take_append_drop k (blanks ++ (marker ++ blanks'))
  rw [hdrop] at hline
  obtain ⟨u, -, hu⟩ := Text.exists_append_of_not_mem hline.symm hnone.1
  cases u with
  | nil =>
    apply hlead (blanks' ++ after)
    rw [List.nil_append] at hu
    rw [hdrop, ← hu, List.append_assoc] at hbegins
    exact ⟨_, hbegins.symm⟩
  | cons d u =>
    rw [hinside, List.cons_append, List.cons_append, List.cons.injEq] at hu
    have hmem : '<' ∈ inside ++ blanks' := by
      rw [hu.2]
      simp
    rw [List.mem_append] at hmem
    exact hmem.elim hlone hnone.2

theorem Text.mem_slice {a b : Text} {c : Char} {start stop : Nat} (hstart : start ≤ a.length)
    (hstop : a.length < stop) : c ∈ slice (a ++ c :: b) start stop := by
  unfold slice
  obtain ⟨n, hn⟩ : ∃ n, stop - start - (a.drop start).length = n + 1 := by
    rw [List.length_drop]
    exact ⟨stop - a.length - 1, by omega⟩
  rw [List.drop_append_of_le_length hstart, List.take_append, hn, List.take_succ_cons]
  simp

theorem IsMatch.newline_not_mem_slice {l : Located} (h : IsMatch text limit l)
    : '\n' ∉ Text.slice text l.start l.stop := by
  have hlead : '\n' ∉ commentLead := by decide
  have hend : '\n' ∉ commentEnd := by decide
  rw [← h.text_eq, Directive.text]
  simp [hlead, hend, h.newline_not_mem]

theorem IsMatch.avoids {l : Located} {before line after : Text} (hmatch : IsMatch text limit l)
    (hline : IsLine text before line after) (hmarker : IsMarkerLine line)
    : l.stop ≤ before.length ∨ before.length + line.length ≤ l.start := by
  by_cases hstop : l.stop ≤ before.length
  . exact .inl hstop
  . right
    apply Nat.not_lt.mp
    intro hlt
    by_cases hstart : before.length ≤ l.start
    . apply hmarker.not_beginsAt hstart hlt
      rw [← hline.text_eq]
      exact hmatch.begins
    . apply hmatch.newline_not_mem_slice
      rcases hline.starts with rfl | ⟨earlier, rfl⟩
      . exact absurd (Nat.zero_le _) hstart
      . rw [List.length_append, List.length_singleton] at hstart hstop
        rw [hline.text_eq, List.append_assoc, List.singleton_append]
        exact Text.mem_slice (by omega) (by omega)

/-- The directives that are found are exactly those of the text, from the left and without overlaps.
Each of them is as it should be, and every place where one can begin is the beginning of one or lies
inside one. None lies on the line of a marker. -/
theorem findDirectives_exact (text : Text)
    : Finds text 0 (findDirectives text) ∧
        ((findDirectives text).Pairwise fun a b => a.start < a.stop ∧ a.stop ≤ b.start) ∧
        (∀ p, BeginsAt text p →
          ∃ l ∈ findDirectives text, l.start = p ∨ (l.start < p ∧ p < l.stop)) ∧
        ∀ before line after, IsLine text before line after → IsMarkerLine line →
          ∀ l ∈ findDirectives text, l.stop ≤ before.length ∨ before.length + line.length ≤ l.start := by
  have hfinds := finds_findDirectives text
  refine ⟨hfinds, hfinds.pairwise, ?_, ?_⟩
  . intro p hp
    exact hfinds.exists_covers (Nat.zero_le p) hp
  . intro before line after hline hmarker l hl
    obtain ⟨limit, -, hmatch⟩ := hfinds.exists_isMatch l hl
    exact hmatch.avoids hline hmarker

end Transclusion
