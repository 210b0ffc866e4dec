import Transclusion.Proofs.Region.Marker

/-!
This module contains how the search for opening markers goes over a text that is put together from
parts: over text without a marker (`go_append_of_none`), over text that no marker leaves
(`go_append_of_within`), and over a whole region, of which exactly the first marker counts
(`findings_go_region`).
-/

namespace Transclusion
namespace Region

def Unmarked (t : Text) : Prop :=
  ∀ u, u <:+ t → openingAt? u = none

theorem Unmarked.of_infix {s t : Text} (h : Unmarked t) (hst : s <:+: t) : Unmarked s := by
  intro u hu
  obtain ⟨before, after, hst⟩ := hst
  cases hmarked : openingAt? u with
  | none => rfl
  | some marked =>
    have := openingAt?_append_of_eq_some (v := after) hmarked
    rw [h] at this
    . simp at this
    . obtain ⟨s', hu⟩ := hu
      refine ⟨before ++ s', ?_⟩
      rw [← hst, ← hu]
      simp

theorem openingAt?_cons_of_ne {c : Char} {u : Text} (hc : c ≠ '<') : openingAt? (c :: u) = none := by
  cases h : openingAt? (c :: u) with
  | none => rfl
  | some marked =>
    obtain ⟨_, _, rest, h⟩ := openingAt?_eq_some_iff.mp h
    have hlead : openingWords = '<' :: openingWords.tail := by rfl
    rw [openingMarker_append, hlead, List.cons_append, List.cons.injEq] at h
    exact absurd h.1 hc

theorem openingMarker_ne_nil (name id : Text) : openingMarker name id ≠ [] := by
  intro h
  have := openingMarker_append name id []
  rw [h, quotedParts] at this
  simp at this

def margin (m : Nat × Nat) (c : Char) : Nat × Nat :=
  if Text.isIndent c then (m.1, m.2 + 1)
  else if c = '\n' then (if m.2 = 0 then m.1 + 1 else 1, 0)
  else (0, 0)

theorem go_cons_of_none {breaks blanks offset : Nat} {c : Char} {rest : Text}
    (h : openingAt? (c :: rest) = none)
    : openings.go 0 breaks blanks offset (c :: rest)
        =
      openings.go 0 (margin (breaks, blanks) c).1 (margin (breaks, blanks) c).2 (offset + 1) rest := by
  rw [openings.go, h]
  unfold margin
  dsimp only
  split
  . rfl
  . split <;> rfl

def openingHere (name id : Text) (breaks blanks offset : Nat) (rest : Text) : Opening where
  name
  id
  start := offset - blanks
  stop := offset + (openingMarker name id).length
  breaks
  rest

theorem go_cons_of_some {breaks blanks offset : Nat} {c : Char} {rest name id : Text}
    (h : openingAt? (c :: rest) = some (name, id))
    : openings.go 0 breaks blanks offset (c :: rest)
        =
      openingHere name id breaks blanks offset ((c :: rest).drop (openingMarker name id).length) ::
        openings.go ((openingMarker name id).length - 1) 0 0 (offset + 1) rest := by
  rw [openings.go, h]
  rfl

theorem go_append_of_none {x s : Text} (m : Nat × Nat) (offset : Nat)
    (h : ∀ u, u <:+ x → u ≠ [] → openingAt? (u ++ s) = none)
    : openings.go 0 m.1 m.2 offset (x ++ s)
        =
      openings.go 0 (x.foldl margin m).1 (x.foldl margin m).2 (offset + x.length) s := by
  induction x generalizing m offset with
  | nil => simp
  | cons c x ih =>
    have hhere : openingAt? (c :: (x ++ s)) = none := h (c :: x) List.suffix_rfl (by simp)
    rw [List.cons_append, go_cons_of_none hhere, ih]
    . rw [List.foldl_cons, List.length_cons, Nat.add_assoc, Nat.add_comm 1]
    . intro u hu
      exact h u (hu.trans (List.suffix_cons c x))

theorem go_skip {x s : Text} (breaks blanks offset : Nat) (hx : x ≠ [])
    : openings.go x.length breaks blanks offset (x ++ s)
        =
      openings.go 0 0 0 (offset + x.length) s := by
  induction x generalizing breaks blanks offset with
  | nil => exact absurd rfl hx
  | cons c x ih =>
    rw [List.cons_append, List.length_cons, openings.go]
    cases x with
    | nil => rfl
    | cons d x =>
      rw [ih]
      . rw [List.length_cons]
        congr 1
        omega
      . simp

theorem unmarked_of_go_eq_nil {t : Text} {m : Nat × Nat} {offset : Nat}
    (h : openings.go 0 m.1 m.2 offset t = []) : Unmarked t := by
  induction t generalizing m offset with
  | nil =>
    intro u hu
    rw [List.suffix_nil.mp hu]
    rfl
  | cons c t ih =>
    have hhere : openingAt? (c :: t) = none := by
      rw [openings.go] at h
      split at h
      next => simp at h
      next hnone => exact hnone
    rw [go_cons_of_none hhere] at h
    intro u hu
    cases List.suffix_cons_iff.mp hu with
    | inl hu => rw [hu, hhere]
    | inr hu => exact ih h u hu

theorem go_of_unmarked {t : Text} (h : Unmarked t) (m : Nat × Nat) (offset : Nat)
    : openings.go 0 m.1 m.2 offset t = [] := by
  have := go_append_of_none (x := t) (s := []) m offset (by
    intro u hu _
    rw [List.append_nil]
    exact h u hu)
  rw [List.append_nil] at this
  rw [this, openings.go]

theorem openings_eq_nil_iff {t : Text} : openings t = [] ↔ Unmarked t := by
  constructor
  . intro h
    exact unmarked_of_go_eq_nil (m := (0, 0)) h
  . intro h
    exact go_of_unmarked h (0, 0) 0

-- No marker that begins in `x` goes on behind the end of the comment. What the search finds in `x` is
-- of no further interest; it leaves as it would begin.
theorem go_append_of_within {x s : Text} (skip breaks blanks offset : Nat) (hskip : skip ≤ x.length + 1)
    (h : ∀ u, u <:+ x → ∀ name id, openingAt? (u ++ '>' :: s) = some (name, id) →
      (openingMarker name id).length ≤ u.length + 1)
    : ∃ found, openings.go skip breaks blanks offset (x ++ '>' :: s)
          =
        found ++ openings.go 0 0 0 (offset + (x.length + 1)) s ∧
        ∀ o ∈ found, o.start < offset + (x.length + 1) := by
  induction x generalizing skip breaks blanks offset with
  | nil =>
    refine ⟨[], ?_, by simp⟩
    cases skip with
    | zero =>
      rw [List.nil_append, go_cons_of_none (openingAt?_cons_of_ne (by decide))]
      rfl
    | succ skip =>
      have : skip = 0 := by simpa using hskip
      rw [this]
      rfl
  | cons c x ih =>
    have ih : ∀ skip breaks blanks, skip ≤ x.length + 1 →
        ∃ found, openings.go skip breaks blanks (offset + 1) (x ++ '>' :: s)
            =
          found ++ openings.go 0 0 0 (offset + ((c :: x).length + 1)) s ∧
          ∀ o ∈ found, o.start < offset + ((c :: x).length + 1) := by
      intro skip breaks blanks hskip
      have hoffset : offset + ((c :: x).length + 1) = offset + 1 + (x.length + 1) := by
        rw [List.length_cons]
        omega
      rw [hoffset]
      apply ih skip breaks blanks _ hskip
      intro u hu
      exact h u (hu.trans (List.suffix_cons c x))
    rw [List.length_cons] at hskip
    rw [List.cons_append]
    cases skip with
    | succ skip =>
      rw [openings.go]
      apply ih
      omega
    | zero =>
      cases hhere : openingAt? (c :: (x ++ '>' :: s)) with
      | none =>
        rw [go_cons_of_none hhere]
        apply ih
        omega
      | some marked =>
        obtain ⟨name, id⟩ := marked
        have hlength := h (c :: x) List.suffix_rfl name id hhere
        rw [List.length_cons] at hlength
        obtain ⟨found, hfound, hstart⟩ := ih ((openingMarker name id).length - 1) 0 0 (by omega)
        rw [go_cons_of_some hhere, hfound]
        rw [← List.cons_append]
        refine ⟨_, rfl, ?_⟩
        intro o ho
        cases List.mem_cons.mp ho with
        | inl ho =>
          rw [ho, openingHere]
          dsimp only
          omega
        | inr ho => exact hstart o ho

theorem foldl_margin_of_isIndent {indent : Text} (h : ∀ c ∈ indent, Text.isIndent c = true)
    (m : Nat × Nat) : indent.foldl margin m = (m.1, m.2 + indent.length) := by
  induction indent generalizing m with
  | nil => rfl
  | cons c indent ih =>
    have hc : margin m c = (m.1, m.2 + 1) := by
      simp [margin, h c (by simp)]
    rw [List.foldl_cons, hc, ih]
    . rw [List.length_cons, Nat.add_assoc, Nat.add_comm 1]
    . intro d hd
      exact h d (by simp [hd])

theorem ne_lt_of_isIndent {c : Char} (h : Text.isIndent c = true) : c ≠ '<' := by
  intro hc
  rw [hc] at h
  revert h
  decide

-- No marker from before a region runs into it, and none begins in the line before its first marker.
theorem openingAt?_append_region_eq_none {x indent name id rest u : Text} (hx : Unmarked x)
    (hindent : ∀ c ∈ indent, Text.isIndent c = true) (hname : Plain name) (hid : Plain id)
    (hu : u <:+ x ++ '\n' :: indent) (hne : u ≠ [])
    : openingAt? (u ++ (openingMarker name id ++ rest)) = none := by
  rcases Text.suffix_append_cases hu with hu | ⟨w, hw, hwne, rfl⟩
  . obtain ⟨c, u, rfl⟩ := List.exists_cons_of_ne_nil hne
    apply openingAt?_cons_of_ne
    cases List.mem_cons.mp (hu.subset (List.mem_cons_self ..)) with
    | inl hc =>
      rw [hc]
      decide
    | inr hc => exact ne_lt_of_isIndent (hindent c hc)
  . cases h : openingAt? (w ++ '\n' :: indent ++ (openingMarker name id ++ rest)) with
    | none => rfl
    | some marked =>
      have hg : '"' ∉ indent ++ openingWords := by
        intro hmem
        cases List.mem_append.mp hmem with
        | inl hmem => exact absurd (hindent _ hmem) (by decide)
        | inr hmem => exact absurd hmem (by decide)
      rw [openingMarker_append, List.append_assoc, List.cons_append, ← List.append_assoc indent,
        ← List.cons_append] at h
      have := openingAt?_of_append_quotedParts hwne hg (.inl rfl) hname.quote_not_mem
        hname.gt_not_mem hid.gt_not_mem h
      rw [hx w hw] at this
      simp at this

def closingInside (name id : Text) : Text :=
  closingWords.tail ++ quotedParts name id [' ', '-', '-']

theorem closingMarker_eq (name id : Text)
    : closingMarker name id = '<' :: (closingInside name id ++ ['>']) := by
  have := closingMarker_append name id []
  rw [List.append_nil] at this
  rw [this, closingInside, quotedParts, quotedParts]
  simp only [List.append_assoc, List.cons_append, List.nil_append, markerEnd]
  rfl

theorem lt_not_mem_closingInside {name id : Text} (hname : Plain name) (hid : Plain id)
    : '<' ∉ closingInside name id := by
  have := hname.lt_not_mem
  have := hid.lt_not_mem
  have : '<' ∉ closingWords.tail := by decide
  simp [closingInside, quotedParts, *]

theorem openingAt?_closingMarker_append (name id rest : Text)
    : openingAt? (closingMarker name id ++ rest) = none := by
  cases h : openingAt? (closingMarker name id ++ rest) with
  | none => rfl
  | some marked =>
    obtain ⟨_, _, _, h⟩ := openingAt?_eq_some_iff.mp h
    rw [openingMarker_append, closingMarker_append] at h
    have := congrArg (List.take 6) h
    rw [List.take_append_of_le_length (by decide), List.take_append_of_le_length (by decide)] at this
    exact absurd this (by decide)

-- A marker that begins in a region ends there: one that takes in the first quote of the closing marker
-- would have to be the closing marker itself.
theorem length_openingMarker_le_of_closingMarker {inner name id a b u s : Text} (hname : Plain name)
    (hid : Plain id) (hu : u <:+ inner ++ '<' :: closingInside name id)
    (h : openingAt? (u ++ '>' :: s) = some (a, b))
    : (openingMarker a b).length ≤ u.length + 1 := by
  have hinside := lt_not_mem_closingInside hname hid
  rcases Text.suffix_append_cases hu with hu | ⟨w, hw, hwne, rfl⟩
  . cases List.suffix_cons_iff.mp hu with
    | inl hu =>
      have := openingAt?_closingMarker_append name id s
      rw [closingMarker_eq, List.cons_append, List.append_assoc, List.singleton_append] at this
      rw [hu, List.cons_append, this] at h
      simp at h
    | inr hu =>
      have hlt : ∀ c ∈ u, c ≠ '<' := by
        intro c hc h
        exact hinside (h ▸ hu.subset hc)
      cases u with
      | nil =>
        rw [List.nil_append, openingAt?_cons_of_ne (by decide)] at h
        simp at h
      | cons c u =>
        rw [List.cons_append, openingAt?_cons_of_ne (hlt c (by simp))] at h
        simp at h
  . have hclosing : w ++ '<' :: closingInside name id ++ '>' :: s
        = w ++ ('<' :: closingWords.tail ++ quotedParts name id (markerEnd ++ s)) := by
      have := closingMarker_append name id s
      rw [closingMarker_eq] at this
      simp only [List.cons_append, List.append_assoc, List.nil_append] at this
      simp only [List.cons_append, List.append_assoc, this]
      rfl
    rw [hclosing] at h
    have := openingAt?_of_append_quotedParts hwne (by decide) (.inr rfl) hname.quote_not_mem
      hname.gt_not_mem hid.gt_not_mem h
    obtain ⟨_, _, rest, hw'⟩ := openingAt?_eq_some_iff.mp this
    rw [hw']
    simp only [List.length_append]
    omega

def regionText (indent name id inside : Text) : Text :=
  '\n' :: indent ++ (openingMarker name id ++ (inside ++ (closingMarker name id ++ ['\n'])))

theorem findings_append_of_lt {cursor : Nat} {found later : List Opening}
    (h : ∀ o ∈ found, o.start < cursor)
    : findings cursor (found ++ later) = findings cursor later := by
  induction found with
  | nil => rfl
  | cons o found ih =>
    rw [List.cons_append, findings, if_pos (h o (by simp))]
    apply ih
    intro o' ho'
    exact h o' (by simp [ho'])

theorem regionStop?_openingHere {name id inside : Text} (breaks blanks offset : Nat) (rest : Text)
    (hname : Plain name) (hid : Plain id) (hinside : ¬ closingMarker name id <:+: inside)
    : (openingHere name id breaks blanks offset
          (inside ++ (closingMarker name id ++ '\n' :: rest))).regionStop?
        =
      some (offset + (openingMarker name id).length +
        (inside ++ (closingMarker name id ++ ['\n'])).length) := by
  have hlt : '<' ∉ closingInside name id ++ ['>'] := by
    have := lt_not_mem_closingInside hname hid
    simp [this]
  have hindex : Text.indexOf? (closingMarker name id) (inside ++ (closingMarker name id ++ '\n' :: rest))
      = some inside.length := by
    rw [closingMarker_eq] at *
    exact Text.indexOf?_append_of_not_infix hlt hinside
  have hdrop : (inside ++ (closingMarker name id ++ '\n' :: rest)).drop
      (inside.length + (closingMarker name id).length) = '\n' :: rest := by
    rw [← List.append_assoc]
    exact List.drop_left' (by simp)
  unfold Opening.regionStop? openingHere
  dsimp only
  rw [hindex, Option.map_some, hdrop]
  simp only [List.head?_cons, beq_self_eq_true, if_true, List.length_append, List.length_singleton]
  rfl

theorem openingMarker_eq (name id : Text)
    : openingMarker name id = '<' :: (openingWords.tail ++ quotedParts name id markerEnd) := by
  have := openingMarker_append name id []
  rw [List.append_nil, List.append_nil] at this
  rw [this]
  rfl

theorem go_openingMarker_append {name id rest : Text} {breaks blanks offset : Nat}
    (hname : Quotable name) (hid : Quotable id)
    : openings.go 0 breaks blanks offset (openingMarker name id ++ rest)
        =
      openingHere name id breaks blanks offset rest ::
        openings.go 0 0 0 (offset + (openingMarker name id).length) rest := by
  have hhere : openingAt? (openingMarker name id ++ rest) = some (name, id) := by
    rw [openingAt?_eq_some_iff]
    exact ⟨hname, hid, rest, rfl⟩
  have hrest : (openingMarker name id ++ rest).drop (openingMarker name id).length = rest :=
    List.drop_left ..
  have htail : openingWords.tail ++ quotedParts name id markerEnd ≠ [] := by
    simp [quotedParts]
  rw [openingMarker_eq, List.cons_append] at *
  rw [go_cons_of_some hhere, openingMarker_eq, hrest, List.length_cons, Nat.add_sub_cancel,
    go_skip _ _ _ htail, Nat.add_assoc, Nat.add_comm 1]

-- Of the markers of a region only the first one counts: those inside begin before its end.
theorem go_regionText_append {x indent name id inside rest : Text} (m : Nat × Nat) (offset : Nat)
    (hx : Unmarked x) (hindent : ∀ c ∈ indent, Text.isIndent c = true) (hname : Plain name)
    (hid : Plain id)
    : ∃ found, openings.go 0 m.1 m.2 offset (x ++ (regionText indent name id inside ++ rest))
          =
        openingHere name id (margin (x.foldl margin m) '\n').1 indent.length
            (offset + (x ++ '\n' :: indent).length)
            (inside ++ (closingMarker name id ++ '\n' :: rest)) ::
          (found ++
            openings.go 0 1 0 (offset + (x ++ regionText indent name id inside).length) rest) ∧
        ∀ o ∈ found, o.start < offset + (x ++ regionText indent name id inside).length := by
  have hsplit : x ++ (regionText indent name id inside ++ rest)
      = (x ++ '\n' :: indent) ++ (openingMarker name id ++
          ((inside ++ '<' :: closingInside name id) ++ '>' :: '\n' :: rest)) := by
    rw [regionText, closingMarker_eq]
    simp only [List.append_assoc, List.cons_append, List.nil_append]
  have hbody : inside ++ '<' :: closingInside name id ++ '>' :: '\n' :: rest
      = inside ++ (closingMarker name id ++ '\n' :: rest) := by
    rw [closingMarker_eq]
    simp only [List.append_assoc, List.cons_append, List.nil_append]
  have hlength : (x ++ regionText indent name id inside).length
      = (x ++ '\n' :: indent).length + (openingMarker name id).length +
          ((inside ++ '<' :: closingInside name id).length + 1) + 1 := by
    rw [regionText, closingMarker_eq]
    simp only [List.length_append, List.length_cons, List.length_nil]
    omega
  obtain ⟨found, hfound, hstart⟩ := go_append_of_within 0 0 0
    (offset + (x ++ '\n' :: indent).length + (openingMarker name id).length) (Nat.zero_le _)
    fun u hu a b => length_openingMarker_le_of_closingMarker (s := '\n' :: rest) hname hid hu
  refine ⟨found, ?_, ?_⟩
  . rw [hsplit, go_append_of_none m offset fun u hu hne =>
        openingAt?_append_region_eq_none hx hindent hname hid hu hne,
      go_openingMarker_append hname.quotable hid.quotable, hfound,
      go_cons_of_none (openingAt?_cons_of_ne (by decide)), hbody, List.foldl_append, List.foldl_cons,
      foldl_margin_of_isIndent hindent, hlength]
    dsimp only
    have hblanks : (margin (x.foldl margin m) '\n').2 = 0 := by rfl
    rw [hblanks, Nat.zero_add]
    simp only [Nat.add_assoc]
    rfl
  . intro o ho
    have := hstart o ho
    omega

theorem findings_go_region {x indent name id inside rest : Text} {cursor offset : Nat} (m : Nat × Nat)
    (hx : Unmarked x) (hindent : ∀ c ∈ indent, Text.isIndent c = true) (hname : Plain name)
    (hid : Plain id) (hinside : ¬ closingMarker name id <:+: inside) (hcursor : cursor ≤ offset)
    : findings cursor
          (openings.go 0 m.1 m.2 offset (x ++ (regionText indent name id inside ++ rest)))
        =
      .region {
        name
        id
        start := offset + x.length + 1 -
          min (margin (x.foldl margin m) '\n').1 (offset + x.length + 1 - cursor)
        stop := offset + (x ++ regionText indent name id inside).length } ::
        findings (offset + (x ++ regionText indent name id inside).length)
          (openings.go 0 1 0 (offset + (x ++ regionText indent name id inside).length) rest) := by
  obtain ⟨found, hgo, hfound⟩ := go_regionText_append m offset hx hindent hname hid
  rw [hgo]
  generalize ho : openingHere name id _ _ _ _ = o
  have hstart : o.start = offset + x.length + 1 := by
    rw [← ho, openingHere]
    simp only [List.length_append, List.length_cons]
    omega
  have hstop : o.regionStop? = some (offset + (x ++ regionText indent name id inside).length) := by
    rw [← ho, regionStop?_openingHere _ _ _ _ hname hid hinside, regionText]
    simp only [List.length_append, List.length_cons, List.length_nil]
    congr 1
    omega
  rw [findings, if_neg (by omega), hstop]
  dsimp only
  rw [findings_append_of_lt hfound, hstart, ← ho, openingHere]

end Region
end Transclusion
