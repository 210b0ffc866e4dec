import Transclusion.Placeholder
import Transclusion.Proofs.Text.Search

/-!
This module contains how the two passes of a substitution go over a text that is put together from
parts: over a placeholder that they replace, and over text in which none begins that they would
(`replaceAll_append_of_not_prefix`, `substituteTransformed_append_of_none`).
-/

namespace Transclusion
namespace Text

variable {pattern replacement : Text}

theorem replaceAll_eq_go (h : pattern ≠ []) (text : Text)
    : replaceAll pattern replacement text = replaceAll.go pattern replacement 0 text := by
  simp [replaceAll, h]

theorem replaceAll_go_skip (x s : Text)
    : replaceAll.go pattern replacement x.length (x ++ s) = replaceAll.go pattern replacement 0 s := by
  induction x with
  | nil => rfl
  | cons c x ih => exact ih

theorem replaceAll_nil (h : pattern ≠ []) : replaceAll pattern replacement [] = [] := by
  rw [replaceAll_eq_go h, replaceAll.go]

theorem replaceAll_append_self (h : pattern ≠ []) (s : Text)
    : replaceAll pattern replacement (pattern ++ s)
        =
      replacement ++ replaceAll pattern replacement s := by
  obtain ⟨c, rest, rfl⟩ := List.exists_cons_of_ne_nil h
  have hstarts : (c :: rest).isPrefixOf (c :: (rest ++ s)) = true :=
    List.isPrefixOf_iff_prefix.mpr ⟨s, rfl⟩
  rw [replaceAll_eq_go h, replaceAll_eq_go h, List.cons_append, replaceAll.go, if_pos hstarts,
    List.length_cons, Nat.add_sub_cancel, replaceAll_go_skip]

theorem replaceAll_cons_of_not_prefix (h : pattern ≠ []) {c : Char} {s : Text}
    (hstarts : ¬ pattern <+: c :: s)
    : replaceAll pattern replacement (c :: s) = c :: replaceAll pattern replacement s := by
  rw [← List.isPrefixOf_iff_prefix] at hstarts
  rw [replaceAll_eq_go h, replaceAll_eq_go h, replaceAll.go, if_neg hstarts]

theorem replaceAll_append_of_not_prefix (h : pattern ≠ []) {x s : Text}
    (hstarts : ∀ u, u <:+ x → u ≠ [] → ¬ pattern <+: u ++ s)
    : replaceAll pattern replacement (x ++ s) = x ++ replaceAll pattern replacement s := by
  induction x with
  | nil => rfl
  | cons c x ih =>
    have hhere : ¬ pattern <+: c :: (x ++ s) := hstarts (c :: x) List.suffix_rfl (by simp)
    rw [List.cons_append, replaceAll_cons_of_not_prefix h hhere, ih, List.cons_append]
    intro u hu
    exact hstarts u (hu.trans (List.suffix_cons c x))

end Text

namespace Placeholder

def Word (word : Text) : Prop :=
  word ≠ [] ∧ ∀ c ∈ word, Text.isWord c = true

instance (word : Text) : Decidable (Word word) :=
  decidable_of_iff (word ≠ [] ∧ word.all Text.isWord = true)
    (and_congr_right fun _ => List.all_eq_true)

def transformed (name word : Text) : Text :=
  transformLead name ++ word ++ "\x7d"

theorem plain_append (name rest : Text)
    : plain name ++ rest = '$' :: '{' :: (name ++ '}' :: rest) := by
  have hopening : opening = ['$', '{'] := by rfl
  have hclosing : ("\x7d" : String).toList = ['}'] := by rfl
  unfold plain
  rw [hopening, hclosing]
  simp

theorem plain_ne_nil (name : Text) : plain name ≠ [] := by
  intro h
  have := plain_append name []
  rw [h] at this
  simp at this

theorem transformLead_append (name rest : Text)
    : transformLead name ++ rest = '$' :: '{' :: (name ++ '.' :: rest) := by
  have hopening : opening = ['$', '{'] := by rfl
  have hpoint : ("." : String).toList = ['.'] := by rfl
  unfold transformLead
  rw [hopening, hpoint]
  simp

theorem transformed_append (name word rest : Text)
    : transformed name word ++ rest = '$' :: '{' :: (name ++ '.' :: (word ++ '}' :: rest)) := by
  have hclosing : ("\x7d" : String).toList = ['}'] := by rfl
  unfold transformed
  rw [List.append_assoc, List.append_assoc, transformLead_append, hclosing]
  rfl

theorem transformed_ne_nil (name word : Text) : transformed name word ≠ [] := by
  intro h
  have := transformed_append name word []
  rw [h] at this
  simp at this

theorem Word.not_mem {word : Text} (h : Word word) {c : Char} (hc : Text.isWord c = false)
    : c ∉ word := by
  intro hmem
  rw [h.2 c hmem] at hc
  contradiction

theorem Word.dollar_not_mem {word : Text} (h : Word word) : '$' ∉ word :=
  h.not_mem (by decide)

theorem Word.brace_not_mem {word : Text} (h : Word word) : '}' ∉ word :=
  h.not_mem (by decide)

theorem transformAt?_eq_some_iff {name text word : Text}
    : transformAt? name text = some word ↔
        Word word ∧ ∃ rest, text = transformed name word ++ rest := by
  unfold transformAt?
  constructor
  . intro h
    split at h
    next => simp at h
    next rest hrest =>
      rw [Text.isPrefixOf?_eq_some_iff] at hrest
      dsimp only at h
      split at h
      next hword =>
        rw [Option.some.injEq] at h
        rw [Bool.and_eq_true, beq_iff_eq, h] at hword
        obtain ⟨hne, hclosing⟩ := hword
        obtain ⟨after, hafter⟩ := List.head?_eq_some_iff.mp hclosing
        have hsplit : rest = word ++ '}' :: after := by
          have htake : rest.take word.length = word := by
            rw [← h]
            exact (List.prefix_iff_eq_take.mp (List.takeWhile_prefix _)).symm
          rw [← hafter]
          conv =>
            rhs
            lhs
            rw [← htake]
          exact (List.take_append_drop _ _).symm
        refine ⟨⟨by simpa using hne, ?_⟩, after, ?_⟩
        . intro c hc
          rw [← h] at hc
          exact List.all_eq_true.mp List.all_takeWhile c hc
        . rw [hrest, hsplit, transformLead_append, transformed_append]
      next => simp at h
  . intro ⟨hword, rest, htext⟩
    have hrest : (transformLead name).isPrefixOf? text = some (word ++ '}' :: rest) := by
      rw [Text.isPrefixOf?_eq_some_iff, transformLead_append, htext, transformed_append]
    have htake : (word ++ '}' :: rest).takeWhile Text.isWord = word := by
      rw [List.takeWhile_append_of_pos hword.2, List.takeWhile_cons_of_neg (by decide), List.append_nil]
    rw [hrest]
    dsimp only
    rw [htake, List.drop_left]
    simp [hword.1]

variable {transforms : Transforms} {name value : Text}

theorem substituteTransformed_nil : substituteTransformed transforms name value [] = [] := by rfl

theorem substituteTransformed_go_skip (x s : Text)
    : substituteTransformed.go transforms name value x.length (x ++ s)
        =
      substituteTransformed.go transforms name value 0 s := by
  induction x with
  | nil => rfl
  | cons c x ih => exact ih

theorem substituteTransformed_cons_of_none {c : Char} {s : Text} (h : transformAt? name (c :: s) = none)
    : substituteTransformed transforms name value (c :: s)
        =
      c :: substituteTransformed transforms name value s := by
  unfold substituteTransformed
  rw [substituteTransformed.go, h]

def shownFor (transforms : Transforms) (name value word : Text) : Text :=
  match transforms.get? word with
  | some transform => transform value
  | none => transformed name word

theorem substituteTransformed_append {word : Text} (h : Word word) (s : Text)
    : substituteTransformed transforms name value (transformed name word ++ s)
        =
      shownFor transforms name value word ++ substituteTransformed transforms name value s := by
  have hhere : transformAt? name (transformed name word ++ s) = some word :=
    transformAt?_eq_some_iff.mpr ⟨h, s, rfl⟩
  obtain ⟨c, rest, hcons⟩ := List.exists_cons_of_ne_nil (transformed_ne_nil name word)
  have hsize : (transformLead name ++ word ++ "\x7d").length - 1 = rest.length := by
    change (transformed name word).length - 1 = rest.length
    rw [hcons, List.length_cons, Nat.add_sub_cancel]
  unfold substituteTransformed shownFor
  rw [hcons, List.cons_append] at hhere ⊢
  rw [substituteTransformed.go, hhere]
  dsimp only
  rw [hsize, substituteTransformed_go_skip, ← hcons]
  rfl

theorem substituteTransformed_append_of_none {x s : Text}
    (h : ∀ u, u <:+ x → u ≠ [] → transformAt? name (u ++ s) = none)
    : substituteTransformed transforms name value (x ++ s)
        =
      x ++ substituteTransformed transforms name value s := by
  induction x with
  | nil => rfl
  | cons c x ih =>
    have hhere : transformAt? name (c :: (x ++ s)) = none := h (c :: x) List.suffix_rfl (by simp)
    rw [List.cons_append, substituteTransformed_cons_of_none hhere, ih, List.cons_append]
    intro u hu
    exact h u (hu.trans (List.suffix_cons c x))

end Placeholder
end Transclusion
