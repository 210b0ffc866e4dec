import Transclusion.Configuration.Overrides
import Transclusion.Proofs.Text.Case
import Transclusion.Proofs.Text.Order

/-!
This module contains the order of variables: the variable of a section comes before the variables of the
settings in it (`le_of_path_prefix`), as the names of both can be read off their paths.
-/

namespace Transclusion

namespace Text

/-! ## Cutting at a separator -/

variable {separator : Text}

theorem intercalate_cons (part : Text) {parts : List Text} (h : parts ≠ [])
    : separator.intercalate (part :: parts) = part ++ separator ++ separator.intercalate parts := by
  cases parts with
  | nil => exact absurd rfl h
  | cons next parts => exact List.intercalate_cons_cons

theorem splitOnText_go_ne_nil (skip : Nat) (part text : Text)
    : splitOnText.go separator skip part text ≠ [] := by
  induction text generalizing skip part with
  | nil => simp [splitOnText.go]
  | cons c rest ih =>
    cases skip with
    | succ skip => exact ih skip part
    | zero =>
      rw [splitOnText.go]
      split
      . simp
      . exact ih 0 _

theorem intercalate_go (h : separator ≠ []) (skip : Nat) (part text : Text)
    : separator.intercalate (splitOnText.go separator skip part text) = part.reverse ++ text.drop skip := by
  induction text generalizing skip part with
  | nil => simp [splitOnText.go, List.intercalate]
  | cons c rest ih =>
    cases skip with
    | succ skip => exact ih skip part
    | zero =>
      rw [splitOnText.go]
      split
      next hbegins =>
        obtain ⟨tail, htail⟩ := List.isPrefixOf_iff_prefix.mp hbegins
        rw [intercalate_cons _ (splitOnText_go_ne_nil _ _ _), ih, List.append_assoc, List.drop_zero,
          ← htail]
        cases separator with
        | nil => exact absurd rfl h
        | cons d separator =>
          obtain rfl := (List.cons.inj htail).2
          simp
      next =>
        rw [ih, List.reverse_cons, List.append_assoc, List.drop_zero, List.drop_zero,
          List.singleton_append]

theorem intercalate_splitOnText (h : separator ≠ []) (text : Text)
    : separator.intercalate (splitOnText separator text) = text :=
  intercalate_go h 0 [] text

theorem intercalate_prefix {parts more : List Text} (h : parts ≠ [])
    : separator.intercalate parts <+: separator.intercalate (parts ++ more) := by
  induction parts with
  | nil => exact absurd rfl h
  | cons part parts ih =>
    by_cases hparts : parts = []
    . rw [hparts, List.singleton_append, List.intercalate_singleton]
      by_cases hmore : more = []
      . rw [hmore]
        exact ⟨[], by simp⟩
      . rw [intercalate_cons part hmore, List.append_assoc]
        exact List.prefix_append _ _
    . rw [List.cons_append, intercalate_cons part hparts, intercalate_cons part (by simp [hparts])]
      exact (List.prefix_append_right_inj _).mpr (ih hparts)

theorem mem_intercalate {parts : List Text} {part : Text} {c : Char} (hpart : part ∈ parts)
    (hc : c ∈ part)
    : c ∈ separator.intercalate parts := by
  induction parts with
  | nil => cases hpart
  | cons first parts ih =>
    by_cases hparts : parts = []
    . rw [hparts, List.mem_singleton] at hpart
      rw [hparts, List.intercalate_singleton, ← hpart]
      exact hc
    . rw [intercalate_cons first hparts, List.mem_append, List.mem_append]
      obtain rfl | hpart := List.mem_cons.mp hpart
      . exact .inl (.inl hc)
      . exact .inr (ih hpart)

/-! ## Case -/

def IsUpper (text : Text) : Prop :=
  ∀ c ∈ text, c.toNat < 128 ∧ c.isLower = false

theorem map_toUpper_lower {text : Text} (h : text.IsUpper) : (lower text).map Char.toUpper = text := by
  rw [lower_of_ascii fun c hc => (h c hc).1, List.map_map]
  have hmap : text.map (Char.toUpper ∘ Char.toLower) = text.map id :=
    List.map_congr_left fun c hc => toUpper_toLower (h c hc).1 (h c hc).2
  rw [hmap, List.map_id]

end Text

namespace Configuration

open Text

def settingPath? (name : Text) : Option (List Text) :=
  (variableLead.isPrefixOf? name).bind overridePath?

theorem overridePath?_eq_some_iff {rest : Text} {path : List Text}
    : overridePath? rest = some path ↔
        (∀ part ∈ splitOnText "__" rest, part ≠ []) ∧ path = (splitOnText "__" rest).map lower := by
  have hany : ((splitOnText "__" rest).map lower).any List.isEmpty = false
      ↔ ∀ part ∈ splitOnText "__" rest, part ≠ [] := by
    simp [lower_eq_nil_iff]
  unfold overridePath?
  dsimp only
  rw [← hany]
  split
  next hmalformed =>
    constructor
    . intro h
      cases h
    . intro h
      rw [h.1] at hmalformed
      cases hmalformed
  next hformed =>
    rw [Bool.not_eq_true] at hformed
    exact ⟨fun h => ⟨hformed, (Option.some.inj h).symm⟩, fun h => congrArg some h.2.symm⟩

theorem settingPath?_eq_some_iff {name : Text} {path : List Text}
    : settingPath? name = some path ↔
        ∃ rest, name = variableLead ++ rest ∧ overridePath? rest = some path := by
  rw [settingPath?, Option.bind_eq_some_iff]
  simp only [isPrefixOf?_eq_some_iff]

theorem path_ne_nil {name : Text} {path : List Text} (h : settingPath? name = some path)
    : path ≠ [] := by
  obtain ⟨rest, -, h⟩ := settingPath?_eq_some_iff.mp h
  rw [(overridePath?_eq_some_iff.mp h).2, Ne, List.map_eq_nil_iff]
  exact splitOnText_go_ne_nil 0 [] rest

theorem map_path {name : Text} {path : List Text} (h : settingPath? name = some path)
    (hname : name.IsUpper)
    : variableLead ++ List.intercalate "__" (path.map (List.map Char.toUpper)) = name := by
  obtain ⟨rest, rfl, h⟩ := settingPath?_eq_some_iff.mp h
  have hcut : List.intercalate "__" (splitOnText "__" rest) = rest :=
    intercalate_splitOnText (by decide) rest
  have hparts : ∀ part ∈ splitOnText "__" rest, part.IsUpper := by
    intro part hpart c hc
    apply hname c
    rw [← hcut]
    exact List.mem_append_right _ (mem_intercalate hpart hc)
  have hmap : path.map (List.map Char.toUpper) = (splitOnText "__" rest).map id := by
    rw [(overridePath?_eq_some_iff.mp h).2, List.map_map]
    exact List.map_congr_left fun part hpart => map_toUpper_lower (hparts part hpart)
  rw [hmap, List.map_id, hcut]

theorem le_of_path_prefix {name name' : Text} {path path' : List Text}
    (h : settingPath? name = some path)
    (h' : settingPath? name' = some path') (hname : name.IsUpper) (hname' : name'.IsUpper)
    (hbegins : path <+: path') : le name name' = true := by
  apply le_of_prefix
  obtain ⟨more, rfl⟩ := hbegins
  rw [← map_path h hname, ← map_path h' hname', List.map_append]
  apply (List.prefix_append_right_inj _).mpr
  apply intercalate_prefix
  rw [Ne, List.map_eq_nil_iff]
  exact path_ne_nil h

end Configuration
end Transclusion
