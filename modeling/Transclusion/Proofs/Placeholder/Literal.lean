import Transclusion.Proofs.Placeholder.Apart

/-!
This module contains when the two passes of a substitution come to the same as a single one, which
never looks at a value that it put in: the first pass must not make a placeholder with a transform
(`substitute_eq_replaceOnce_iff`). A value, or what the text has around one, can make one.
-/

namespace Transclusion
namespace Placeholder

variable {words : List Text} {name value : Text}

/-- Every placeholder with one of the transforms that is there after the first pass was there before it,
at the same place. -/
def Settled (words : List Text) (name value text : Text) : Prop :=
  ∀ word ∈ words, ∀ before after,
    Text.replaceAll (plain name) value text = before ++ (transformed name word ++ after) →
      ∃ x y, text = x ++ (transformed name word ++ y) ∧
        Text.replaceAll (plain name) value x = before ∧ Text.replaceAll (plain name) value y = after

-- What the first pass makes of a part at the front stays in front. The text is settled if the rest is
-- and the part becomes nothing in which a placeholder begins.
theorem settled_append_iff {part image s : Text}
    (himage : ∀ x, x <+: s → Text.replaceAll (plain name) value (part ++ x)
      = image ++ Text.replaceAll (plain name) value x)
    (hapart : ∀ word ∈ words, ∀ x y, part ++ s = x ++ (transformed name word ++ y) → part <+: x)
    : Settled words name value (part ++ s) ↔
        Settled words name value s ∧
          ¬ Begins words name image (Text.replaceAll (plain name) value s) := by
  have hbehind : ∀ word ∈ words, ∀ x y, part ++ s = x ++ (transformed name word ++ y) →
      ∃ x', x = part ++ x' ∧ s = x' ++ (transformed name word ++ y) ∧
        Text.replaceAll (plain name) value x = image ++ Text.replaceAll (plain name) value x' := by
    intro word hword x y h
    obtain ⟨x', rfl⟩ := hapart word hword x y h
    rw [List.append_assoc, List.append_cancel_left_eq] at h
    exact ⟨x', rfl, h, himage x' ⟨_, h.symm⟩⟩
  have hwhole := himage s List.prefix_rfl
  constructor
  . intro h
    constructor
    . intro word hword before after hs
      obtain ⟨x, y, hxy, hx, hy⟩ := h word hword (image ++ before) after
        (by rw [hwhole, hs, List.append_assoc])
      obtain ⟨x', rfl, hsplit, himage'⟩ := hbehind word hword x y hxy
      rw [himage', List.append_cancel_left_eq] at hx
      exact ⟨x', y, hsplit, hx, hy⟩
    . intro ⟨word, hword, u, ⟨w, himageSplit⟩, hu, after, hstarts⟩
      obtain ⟨x, y, hxy, hx, _⟩ := h word hword w after
        (by rw [hwhole, ← himageSplit, List.append_assoc, hstarts])
      obtain ⟨x', rfl, _, himage'⟩ := hbehind word hword x y hxy
      rw [himage', ← himageSplit] at hx
      have hlength := congrArg List.length hx
      have := List.length_pos_iff.mpr hu
      simp only [List.length_append] at hlength
      omega
  . intro ⟨h, hbegins⟩ word hword before after htext
    rw [hwhole] at htext
    rcases Text.append_eq_append_cases htext with ⟨before', hbefore, hs⟩ | ⟨u, hu, himageSplit, hstarts⟩
    . obtain ⟨x, y, hsplit, hx, hy⟩ := h word hword before' after hs
      refine ⟨part ++ x, y, by rw [hsplit, List.append_assoc], ?_, hy⟩
      rw [himage x ⟨_, hsplit.symm⟩, hx, hbefore]
    . exact absurd ⟨word, hword, u, ⟨before, himageSplit.symm⟩, hu, after, hstarts⟩ hbegins

theorem settled_plain_append_iff (hname : '$' ∉ name ∨ '}' ∉ name) (hwords : ∀ word ∈ words, Word word)
    {s : Text}
    : Settled words name value (plain name ++ s) ↔
        Settled words name value s ∧
          ¬ Begins words name value (Text.replaceAll (plain name) value s) := by
  apply settled_append_iff fun x _ => Text.replaceAll_append_self (plain_ne_nil name) x
  intro word hword x y h
  rcases own_plain.append_eq_append hname hwords (own_transformed hword) h with ⟨_, hplain, _⟩ | ⟨x', hx, _⟩
  . exact absurd (by rw [hplain]) (plain_append_ne_transformed_append name word [] [])
  . exact ⟨x', hx.symm⟩

theorem settled_cons_iff {c : Char} {s : Text} (hown : ∀ p, Own words name p → ¬ p <+: c :: s)
    : Settled words name value (c :: s) ↔
        Settled words name value s ∧
          ¬ Begins words name [c] (Text.replaceAll (plain name) value s) := by
  rw [← List.singleton_append]
  apply settled_append_iff
  . intro x hx
    apply Text.replaceAll_cons_of_not_prefix (plain_ne_nil name)
    intro hplain
    exact hown _ own_plain (hplain.trans ((List.prefix_cons_inj c).mpr hx))
  . intro word hword x y h
    cases x with
    | nil => exact absurd ⟨y, h.symm⟩ (hown _ (own_transformed hword))
    | cons d x =>
      rw [List.singleton_append, List.cons_append, List.cons.injEq] at h
      rw [h.1]
      exact ⟨x, rfl⟩

theorem settled_transformed_append_iff (hname : '$' ∉ name ∨ '}' ∉ name)
    (hwords : ∀ word ∈ words, Word word) {word : Text} (hword : word ∈ words) {s : Text}
    : Settled words name value (transformed name word ++ s) ↔ Settled words name value s := by
  have hown : Own words name (transformed name word) := own_transformed hword
  have himage : ∀ x, Text.replaceAll (plain name) value (transformed name word ++ x)
      = transformed name word ++ Text.replaceAll (plain name) value x :=
    replaceAll_transformed_append hname (hwords word hword)
  have hnil : Text.replaceAll (plain name) value [] = [] :=
    Text.replaceAll_nil (plain_ne_nil name)
  constructor
  . intro h other hother before after hs
    obtain ⟨x, y, hxy, hx, hy⟩ := h other hother (transformed name word ++ before) after
      (by rw [himage, hs, List.append_assoc])
    rcases hown.append_eq_append hname hwords (own_transformed hother) hxy with ⟨hempty, _⟩ | ⟨x', hx', hs'⟩
    . rw [hempty, hnil] at hx
      exact absurd (List.append_eq_nil_iff.mp hx.symm).1 (hown.ne_nil hwords)
    . rw [hx', himage, List.append_cancel_left_eq] at hx
      exact ⟨x', y, hs', hx, hy⟩
  . intro h other hother before after htext
    rw [himage] at htext
    rcases hown.append_eq_append hname hwords (own_transformed hother) htext with
      ⟨hempty, hsame, hs⟩ | ⟨before', hbefore, hs⟩
    . refine ⟨[], s, by rw [hsame, List.nil_append], ?_, hs⟩
      rw [hempty, hnil]
    . obtain ⟨x, y, hsplit, hx, hy⟩ := h other hother before' after hs
      refine ⟨transformed name word ++ x, y, by rw [hsplit, List.append_assoc], ?_, hy⟩
      rw [himage, hx, hbefore]

def replaceOnce (transforms : Transforms) (name value text : Text) : Text :=
  go 0 text
where
  go : Nat → Text → Text
    | _, [] => []
    | skip + 1, _ :: rest => go skip rest
    | 0, c :: rest =>
      if (plain name).isPrefixOf (c :: rest) then value ++ go ((plain name).length - 1) rest
      else
        match transforms.keys.find? fun word => (transformed name word).isPrefixOf (c :: rest) with
        | some word =>
          shownFor transforms name value word ++ go ((transformed name word).length - 1) rest
        | none => c :: go 0 rest

variable {transforms : Transforms}

theorem replaceOnce_nil : replaceOnce transforms name value [] = [] := by rfl

theorem replaceOnce_go_skip (x s : Text)
    : replaceOnce.go transforms name value x.length (x ++ s) = replaceOnce.go transforms name value 0 s := by
  induction x with
  | nil => rfl
  | cons c x ih => exact ih

theorem replaceOnce_plain_append (s : Text)
    : replaceOnce transforms name value (plain name ++ s)
        =
      value ++ replaceOnce transforms name value s := by
  obtain ⟨c, rest, hcons⟩ := List.exists_cons_of_ne_nil (plain_ne_nil name)
  have hstarts : (plain name).isPrefixOf (c :: (rest ++ s)) = true := by
    rw [List.isPrefixOf_iff_prefix, hcons]
    exact ⟨s, rfl⟩
  have hsize : (plain name).length - 1 = rest.length := by
    rw [hcons, List.length_cons, Nat.add_sub_cancel]
  unfold replaceOnce
  conv =>
    lhs
    rw [hcons, List.cons_append, replaceOnce.go, if_pos hstarts, hsize, replaceOnce_go_skip]

theorem replaceOnce_transformed_append (hwords : ∀ word ∈ transforms.keys, Word word) {word : Text}
    (hword : word ∈ transforms.keys) (s : Text)
    : replaceOnce transforms name value (transformed name word ++ s)
        =
      shownFor transforms name value word ++ replaceOnce transforms name value s := by
  obtain ⟨c, rest, hcons⟩ := List.exists_cons_of_ne_nil (transformed_ne_nil name word)
  have hplain : ¬ (plain name).isPrefixOf (c :: (rest ++ s)) = true := by
    rw [List.isPrefixOf_iff_prefix, ← List.cons_append, ← hcons]
    intro ⟨more, h⟩
    exact plain_append_ne_transformed_append _ _ _ _ h
  have hfind : transforms.keys.find? (fun other => (transformed name other).isPrefixOf (c :: (rest ++ s)))
      = some word := by
    cases hfound : transforms.keys.find?
        (fun other => (transformed name other).isPrefixOf (c :: (rest ++ s))) with
    | none =>
      have := List.find?_eq_none.mp hfound word hword
      rw [List.isPrefixOf_iff_prefix, ← List.cons_append, ← hcons] at this
      exact absurd (List.prefix_append ..) this
    | some other =>
      have hstarts := List.find?_some hfound
      rw [List.isPrefixOf_iff_prefix, ← List.cons_append, ← hcons] at hstarts
      obtain ⟨more, hmore⟩ := hstarts
      have hother := hwords other (List.mem_of_find?_eq_some hfound)
      rw [eq_of_transformed_append_eq hother (hwords word hword) hmore]
  have hsize : (transformed name word).length - 1 = rest.length := by
    rw [hcons, List.length_cons, Nat.add_sub_cancel]
  unfold replaceOnce
  conv =>
    lhs
    rw [hcons, List.cons_append, replaceOnce.go, if_neg hplain, hfind]
    dsimp only
    rw [hsize, replaceOnce_go_skip]

theorem replaceOnce_cons_of_not_prefix {c : Char} {s : Text}
    (h : ∀ p, Own transforms.keys name p → ¬ p <+: c :: s)
    : replaceOnce transforms name value (c :: s) = c :: replaceOnce transforms name value s := by
  have hplain : ¬ (plain name).isPrefixOf (c :: s) = true := by
    rw [List.isPrefixOf_iff_prefix]
    exact h _ own_plain
  have hfind : transforms.keys.find? (fun word => (transformed name word).isPrefixOf (c :: s)) = none := by
    rw [List.find?_eq_none]
    intro word hword
    rw [List.isPrefixOf_iff_prefix]
    exact h _ (own_transformed hword)
  unfold replaceOnce
  rw [replaceOnce.go, if_neg hplain, hfind]

theorem substitute_of_settled (hname : '$' ∉ name ∨ '}' ∉ name)
    (hwords : ∀ word ∈ transforms.keys, Word word) {text : Text}
    (h : Settled transforms.keys name value text)
    : substitute transforms text name value = replaceOnce transforms name value text := by
  unfold substitute
  induction text using parts_induction transforms.keys name with
  | hnil =>
    rw [Text.replaceAll_nil (plain_ne_nil name), substituteTransformed_nil, replaceOnce_nil]
  | hplain s ih =>
    obtain ⟨hs, hbegins⟩ := (settled_plain_append_iff hname hwords).mp h
    rw [Text.replaceAll_append_self (plain_ne_nil name), replaceOnce_plain_append,
      substituteTransformed_append_of_not_begins hname hbegins, ih hs]
  | htransformed word hword s ih =>
    have hs := (settled_transformed_append_iff hname hwords hword).mp h
    rw [replaceAll_transformed_append hname (hwords word hword), replaceOnce_transformed_append hwords hword,
      substituteTransformed_append (hwords word hword), ih hs]
  | hchar c s hown ih =>
    obtain ⟨hs, hbegins⟩ := (settled_cons_iff hown).mp h
    rw [Text.replaceAll_cons_of_not_prefix (plain_ne_nil name) (hown _ own_plain),
      replaceOnce_cons_of_not_prefix hown, ← ih hs]
    exact substituteTransformed_append_of_not_begins hname hbegins

def erasing (words : List Text) (h : words.Nodup) : Transforms where
  entries := words.map fun word => (word, fun _ => [])
  nodup := by
    rw [List.map_map]
    exact (List.map_id words).symm ▸ h

theorem keys_erasing (h : words.Nodup) : (erasing words h).keys = words := by
  unfold OrderedMap.keys erasing
  rw [List.map_map]
  exact List.map_id words

theorem shownFor_erasing (h : words.Nodup) {word : Text} (hword : word ∈ words)
    : shownFor (erasing words h) name value word = [] := by
  cases hget : (erasing words h).get? word with
  | none =>
    have := List.lookup_eq_none_iff.mp hget (word, fun _ => []) (List.mem_map_of_mem hword)
    simp at this
  | some transform =>
    rw [shownFor, hget]
    obtain ⟨before, after, hentries, _⟩ := List.lookup_eq_some_iff.mp hget
    have hentry : (word, transform) ∈ (erasing words h).entries := by
      rw [hentries]
      simp
    obtain ⟨_, _, hpair⟩ := List.mem_map.mp hentry
    rw [Prod.mk.injEq] at hpair
    rw [← hpair.2]

-- The placeholder that begins in the first text takes characters of it away, and from the second one at
-- most such in which no placeholder begins.
theorem length_substituteTransformed_append_lt (hname : '$' ∉ name ∨ '}' ∉ name)
    (hwords : ∀ word ∈ transforms.keys, Word word)
    (hempty : ∀ word ∈ transforms.keys, shownFor transforms name value word = []) {x s : Text}
    (h : Begins transforms.keys name x s)
    : (substituteTransformed transforms name value (x ++ s)).length
        <
      x.length + (substituteTransformed transforms name value s).length := by
  induction hlength : x.length using Nat.strongRecOn generalizing x with
  | _ length ih =>
    cases x with
    | nil => exact absurd h not_begins_nil
    | cons c x =>
      rw [← hlength]
      by_cases hhere : ∃ word ∈ transforms.keys, transformed name word <+: c :: (x ++ s)
      . obtain ⟨word, hword, rest, hrest⟩ := hhere
        have hpos := List.length_pos_iff.mpr (transformed_ne_nil name word)
        rw [List.cons_append, ← hrest, substituteTransformed_append (hwords word hword), hempty word hword,
          List.nil_append]
        rcases Text.append_eq_append_cases (x := c :: x) hrest with ⟨x', hx, hbehind⟩ | ⟨q, hq, hsplit, hs⟩
        . have hshorter : (c :: x).length = (transformed name word).length + x'.length := by
            rw [hx, List.length_append]
          rw [hbehind]
          by_cases hbegins : Begins transforms.keys name x' s
          . have := ih x'.length (by omega) hbegins rfl
            omega
          . rw [substituteTransformed_append_of_not_begins hname hbegins, List.length_append]
            omega
        . have hnone : ¬ Begins transforms.keys name q rest := by
            intro ⟨other, hother, u, ⟨v, hv⟩, hu, hstarts⟩
            have hinside : transformed name word = c :: x ++ v ++ u := by
              rw [hsplit, ← hv, List.append_assoc]
            exact (own_transformed hother).not_inside hname hwords (own_transformed hword) hinside (by simp)
              hu hstarts
          rw [hs, substituteTransformed_append_of_not_begins hname hnone, List.length_append, List.length_cons]
          omega
      . have hbegins := (begins_cons_iff.mp h).resolve_left hhere
        have hrest := ih x.length (by rw [← hlength]; simp) hbegins rfl
        rw [List.cons_append, substituteTransformed_cons_of_not_prefix hname, List.length_cons,
          List.length_cons]
        . omega
        . intro word hword hstarts
          exact hhere ⟨word, hword, hstarts⟩

theorem length_substituteTransformed_append (hname : '$' ∉ name ∨ '}' ∉ name)
    (hwords : ∀ word ∈ transforms.keys, Word word)
    (hempty : ∀ word ∈ transforms.keys, shownFor transforms name value word = []) (x s : Text)
    : (substituteTransformed transforms name value (x ++ s)).length
          ≤ x.length + (substituteTransformed transforms name value s).length ∧
        ((substituteTransformed transforms name value (x ++ s)).length
            = x.length + (substituteTransformed transforms name value s).length →
          ¬ Begins transforms.keys name x s) := by
  by_cases h : Begins transforms.keys name x s
  . have := length_substituteTransformed_append_lt hname hwords hempty h
    exact ⟨by omega, by omega⟩
  . rw [substituteTransformed_append_of_not_begins hname h, List.length_append]
    exact ⟨Nat.le_refl _, fun _ => h⟩

theorem length_substitute (hname : '$' ∉ name ∨ '}' ∉ name)
    (hwords : ∀ word ∈ transforms.keys, Word word)
    (hempty : ∀ word ∈ transforms.keys, shownFor transforms name value word = []) (text : Text)
    : (substitute transforms text name value).length ≤ (replaceOnce transforms name value text).length ∧
        ((substitute transforms text name value).length = (replaceOnce transforms name value text).length →
          Settled transforms.keys name value text) := by
  unfold substitute
  induction text using parts_induction transforms.keys name with
  | hnil =>
    rw [Text.replaceAll_nil (plain_ne_nil name), substituteTransformed_nil, replaceOnce_nil]
    refine ⟨Nat.le_refl _, ?_⟩
    intro _ word _ before after h
    rw [Text.replaceAll_nil (plain_ne_nil name)] at h
    simp [transformed_ne_nil] at h
  | hplain s ih =>
    obtain ⟨hle, heq⟩ := length_substituteTransformed_append hname hwords hempty value
      (Text.replaceAll (plain name) value s)
    rw [Text.replaceAll_append_self (plain_ne_nil name), replaceOnce_plain_append, List.length_append,
      settled_plain_append_iff hname hwords]
    refine ⟨by omega, ?_⟩
    intro h
    exact ⟨ih.2 (by omega), heq (by omega)⟩
  | htransformed word hword s ih =>
    rw [replaceAll_transformed_append hname (hwords word hword), replaceOnce_transformed_append hwords hword,
      substituteTransformed_append (hwords word hword), hempty word hword, List.nil_append, List.nil_append,
      settled_transformed_append_iff hname hwords hword]
    exact ih
  | hchar c s hown ih =>
    obtain ⟨hle, heq⟩ := length_substituteTransformed_append hname hwords hempty [c]
      (Text.replaceAll (plain name) value s)
    rw [List.singleton_append, List.length_singleton] at hle heq
    rw [Text.replaceAll_cons_of_not_prefix (plain_ne_nil name) (hown _ own_plain),
      replaceOnce_cons_of_not_prefix hown, List.length_cons, settled_cons_iff hown]
    refine ⟨by omega, ?_⟩
    intro h
    exact ⟨ih.2 (by omega), heq (by omega)⟩

/-- Whatever the transforms of these names do, the two passes replace each placeholder by its value and
leave what they put in alone, exactly if the first pass makes no placeholder that was not there. -/
theorem substitute_eq_replaceOnce_iff (hname : '$' ∉ name ∨ '}' ∉ name)
    (hwords : ∀ word ∈ transforms.keys, Word word) (value text : Text)
    : (∀ others : Transforms, others.keys = transforms.keys →
          substitute others text name value = replaceOnce others name value text) ↔
        Settled transforms.keys name value text := by
  constructor
  . intro h
    have hkeys := keys_erasing transforms.keys_nodup
    have hsame := h (erasing transforms.keys transforms.keys_nodup) hkeys
    rw [← hkeys] at hwords ⊢
    apply (length_substitute hname hwords _ text).2 (congrArg List.length hsame)
    intro word hword
    rw [hkeys] at hword
    exact shownFor_erasing _ hword
  . intro h others hkeys
    rw [← hkeys] at hwords h
    exact substitute_of_settled hname hwords h

theorem substitute_eq_replaceOnce_dollar
    : Settled ["capitalized"] "x" "\\1 $0" "$\x7bx\x7d" ∧
        substitute .standard "$\x7bx\x7d" "x" "\\1 $0" = "\\1 $0" := by
  have hkeys : Transforms.standard.keys = [("capitalized" : Text)] := by decide +kernel
  have hsettled : Settled ["capitalized"] "x" "\\1 $0" "$\x7bx\x7d" := by
    intro word hword before after h
    obtain rfl := List.mem_singleton.mp hword
    -- The value is too short for the placeholder.
    have hshort : (Text.replaceAll (plain "x") "\\1 $0" "$\x7bx\x7d").length = 5 := by
      decide +kernel
    have hlong : (transformed "x" "capitalized").length = 16 := by
      decide +kernel
    rw [h, List.length_append, List.length_append] at hshort
    omega
  refine ⟨hsettled, ?_⟩
  rw [← hkeys] at hsettled
  rw [(substitute_eq_replaceOnce_iff (by decide) (by decide +kernel) _ _).mpr hsettled .standard rfl]
  decide +kernel

theorem substitute_ne_replaceOnce_ownTransform
    : substitute .standard "$\x7bx\x7d" "x" "$\x7bx.capitalized\x7d"
          ≠ replaceOnce .standard "x" "$\x7bx.capitalized\x7d" "$\x7bx\x7d" ∧
        replaceOnce .standard "x" "$\x7bx.capitalized\x7d" "$\x7bx\x7d" = "$\x7bx.capitalized\x7d" := by
  decide +kernel

end Placeholder
end Transclusion
