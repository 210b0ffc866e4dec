import Mathlib.Data.Bool.AllAny
import Transclusion.Proofs.Text.Case
import Transclusion.Proofs.Text.Search
import Transclusion.Transform

/-!
This module contains what a text with capitals looks like: every word gets its capital by itself, as the
characters between the words keep them apart (`capitalized_append_cons`). An ASCII text keeps its length,
and capitals are not put twice (`capitalized_wordwise`).
-/

namespace Transclusion
namespace Transform

def IsWord (text : Text) : Prop :=
  ∀ c ∈ text, Text.isAlphanumeric c = true

structure IsRun (before run after : Text) : Prop where
  ne_nil : run ≠ []
  isWord : IsWord run
  starts : before = [] ∨ ∃ earlier s, before = earlier ++ [s] ∧ Text.isAlphanumeric s = false
  ends : after = [] ∨ ∃ s later, after = s :: later ∧ Text.isAlphanumeric s = false

theorem go_append_cons {s : Char} (hs : Text.isAlphanumeric s = false) (word a b : Text)
    : capitalized.go word (a ++ s :: b) = capitalized.go word a ++ s :: capitalized b := by
  induction a generalizing word with
  | nil =>
    rw [List.nil_append, capitalized.go, capitalized.go, hs, if_neg Bool.false_ne_true]
    rfl
  | cons c a ih =>
    rw [List.cons_append, capitalized.go, capitalized.go]
    split
    next => exact ih (c :: word)
    next => rw [ih [], List.append_assoc, List.cons_append]

theorem capitalized_append_cons {s : Char} (hs : Text.isAlphanumeric s = false) (a b : Text)
    : capitalized (a ++ s :: b) = capitalized a ++ s :: capitalized b :=
  go_append_cons hs [] a b

theorem go_of_isWord {run : Text} (h : IsWord run) (word : Text)
    : capitalized.go word run = capitalizeWord (word.reverse ++ run) := by
  induction run generalizing word with
  | nil => rw [capitalized.go, List.append_nil]
  | cons c run ih =>
    rw [IsWord, List.forall_mem_cons] at h
    rw [capitalized.go, h.1, if_pos rfl, ih h.2, List.reverse_cons, List.append_assoc,
      List.singleton_append]

theorem capitalized_of_isWord {word : Text} (h : IsWord word)
    : capitalized word = capitalizeWord word :=
  go_of_isWord h []

theorem IsRun.capitalized_eq {before run after : Text} (h : IsRun before run after)
    : capitalized (before ++ (run ++ after))
        =
      capitalized before ++ (capitalizeWord run ++ capitalized after) := by
  have hafter : capitalized (run ++ after) = capitalizeWord run ++ capitalized after := by
    rw [← capitalized_of_isWord h.isWord]
    rcases h.ends with rfl | ⟨s, later, rfl, hs⟩
    . simp [capitalized, capitalized.go, capitalizeWord]
    . have hlater := capitalized_append_cons hs [] later
      rw [List.nil_append] at hlater
      rw [capitalized_append_cons hs, hlater]
      rfl
  rw [← hafter]
  rcases h.starts with rfl | ⟨earlier, s, rfl, hs⟩
  . rfl
  . rw [← List.append_cons, capitalized_append_cons hs, capitalized_append_cons hs, List.append_assoc]
    rfl

-- A text is a word, or a word with a separator behind it and more text.
theorem words_induction {motive : Text → Prop} (hword : ∀ word, IsWord word → motive word)
    (hseparated : ∀ word s rest, IsWord word → Text.isAlphanumeric s = false → motive rest →
      motive (word ++ s :: rest)) (text : Text) : motive text := by
  have hbegun : ∀ word, IsWord word → motive (word ++ text) := by
    induction text with
    | nil =>
      intro word h
      rw [List.append_nil]
      exact hword word h
    | cons c text ih =>
      intro word h
      by_cases hc : Text.isAlphanumeric c = true
      . rw [List.append_cons]
        apply ih
        rw [IsWord, List.forall_mem_append]
        exact ⟨h, by simpa using hc⟩
      . exact hseparated word c text h (Bool.eq_false_iff.mpr hc) (ih [] (by simp [IsWord]))
  exact hbegun [] (by simp [IsWord])

/-! ## ASCII -/

theorem capitalizeWord_of_ascii {c : Char} {rest : Text} (h : ∀ d ∈ c :: rest, d.toNat < 128)
    : capitalizeWord (c :: rest) = c.toUpper :: rest.map Char.toLower := by
  rw [List.forall_mem_cons] at h
  rw [capitalizeWord, Text.upperChar_of_ascii h.1, Text.lower_of_ascii h.2, List.singleton_append]

theorem capitalizeWord_ascii {word : Text} (hascii : ∀ c ∈ word, c.toNat < 128) (h : IsWord word)
    : (capitalizeWord word).length = word.length ∧ IsWord (capitalizeWord word) ∧
        capitalizeWord (capitalizeWord word) = capitalizeWord word := by
  cases word with
  | nil => exact ⟨rfl, h, rfl⟩
  | cons c rest =>
    have hword := capitalizeWord_of_ascii hascii
    rw [IsWord, List.forall_mem_cons] at h
    rw [List.forall_mem_cons] at hascii
    obtain ⟨hupper, hfirst, hagain⟩ := Text.case_of_ascii (.inl rfl) hascii.1
    have hlower : ∀ d ∈ rest, d.toLower.toNat < 128 ∧
        Text.isAlphanumeric d.toLower = Text.isAlphanumeric d ∧ d.toLower.toLower = d.toLower :=
      fun d hd => Text.case_of_ascii (.inr rfl) (hascii.2 d hd)
    rw [hword]
    refine ⟨by simp, ?_, ?_⟩
    . rw [IsWord, List.forall_mem_cons, List.forall_mem_map]
      exact ⟨hfirst.trans h.1, fun d hd => (hlower d hd).2.1.trans (h.2 d hd)⟩
    . rw [capitalizeWord_of_ascii, hagain, List.map_map]
      . congr 1
        exact List.map_congr_left fun d hd => (hlower d hd).2.2
      . rw [List.forall_mem_cons, List.forall_mem_map]
        exact ⟨hupper, fun d hd => (hlower d hd).1⟩

theorem capitalized_ascii {text : Text} (h : ∀ c ∈ text, c.toNat < 128)
    : (capitalized text).length = text.length ∧ capitalized (capitalized text) = capitalized text := by
  induction text using words_induction with
  | hword word hword =>
    obtain ⟨hlength, hisWord, hagain⟩ := capitalizeWord_ascii h hword
    rw [capitalized_of_isWord hword, capitalized_of_isWord hisWord]
    exact ⟨hlength, hagain⟩
  | hseparated word s rest hword hs ih =>
    rw [List.forall_mem_append, List.forall_mem_cons] at h
    obtain ⟨hlength, hisWord, hagain⟩ := capitalizeWord_ascii h.1 hword
    obtain ⟨hlength', hagain'⟩ := ih h.2.2
    rw [capitalized_append_cons hs, capitalized_append_cons hs, capitalized_of_isWord hword,
      capitalized_of_isWord hisWord, hagain, hagain']
    refine ⟨?_, rfl⟩
    rw [List.length_append, List.length_cons, List.length_append, List.length_cons, hlength, hlength']

/-- A text is capitalized word by word. In ASCII the characters between the words stay in place, and each
longest run of letters and digits has its first character in upper case and the others in lower case. -/
theorem capitalized_wordwise
    : (∀ (a b : Text) (s : Char), Text.isAlphanumeric s = false →
          capitalized (a ++ s :: b) = capitalized a ++ s :: capitalized b) ∧
        ∀ text : Text, (∀ c ∈ text, c.toNat < 128) →
          (capitalized text).length = text.length ∧
          (∀ before s after, text = before ++ s :: after → Text.isAlphanumeric s = false →
            (capitalized text)[before.length]? = some s) ∧
          (∀ before first others after, text = before ++ (first :: others ++ after) →
            IsRun before (first :: others) after →
              Text.slice (capitalized text) before.length (before.length + (first :: others).length)
                = first.toUpper :: others.map Char.toLower) ∧
          capitalized (capitalized text) = capitalized text := by
  refine ⟨fun a b s hs => capitalized_append_cons hs a b, ?_⟩
  intro text hascii
  obtain ⟨hlength, hagain⟩ := capitalized_ascii hascii
  refine ⟨hlength, ?_, ?_, hagain⟩
  . rintro before s after rfl hs
    rw [List.forall_mem_append] at hascii
    rw [capitalized_append_cons hs, ← (capitalized_ascii hascii.1).1,
      List.getElem?_append_right (Nat.le_refl _), Nat.sub_self, List.getElem?_cons_zero]
  . rintro before first others after rfl hrun
    rw [List.forall_mem_append, List.forall_mem_append] at hascii
    rw [hrun.capitalized_eq, capitalizeWord_of_ascii hascii.2.1]
    apply Text.slice_append
    . exact (capitalized_ascii hascii.1).1.symm
    . rw [(capitalized_ascii hascii.1).1, List.length_cons, List.length_cons, List.length_map]

def mixedCase : Text := "x_aB1-c"

theorem isRun_mixedCase : IsRun ['x', '_'] ['a', 'B', '1'] ['-', 'c'] where
  ne_nil := List.cons_ne_nil _ _
  isWord := List.all_eq_true.mp (by decide)
  starts := .inr ⟨['x'], '_', rfl, by decide⟩
  ends := .inr ⟨'-', ['c'], rfl, by decide⟩

theorem capitalized_wordwise_mixedCase
    : Text.isAlphanumeric '-' = false ∧
        capitalized ("éA" ++ '-' :: "ßC") = capitalized "éA" ++ '-' :: capitalized "ßC" ∧
        (∀ c ∈ mixedCase, c.toNat < 128) ∧ (capitalized mixedCase).length = mixedCase.length ∧
        (capitalized mixedCase)[5]? = some '-' ∧ IsRun ['x', '_'] ['a', 'B', '1'] ['-', 'c'] ∧
        Text.slice (capitalized mixedCase) 2 5 = ['A', 'b', '1'] ∧
        capitalized (capitalized mixedCase) = capitalized mixedCase := by
  have hhyphen : Text.isAlphanumeric '-' = false := by decide
  have hascii : ∀ c ∈ mixedCase, c.toNat < 128 := List.all_iff_forall_prop.mp (by decide)
  obtain ⟨happend, hwords⟩ := capitalized_wordwise
  obtain ⟨hlength, hstays, hruns, hagain⟩ := hwords mixedCase hascii
  refine ⟨hhyphen, happend "éA" "ßC" '-' hhyphen, hascii, hlength, ?_, isRun_mixedCase, ?_, hagain⟩
  . exact hstays ['x', '_', 'a', 'B', '1'] '-' ['c'] rfl hhyphen
  . exact hruns ['x', '_'] 'a' ['B', '1'] ['-', 'c'] rfl isRun_mixedCase

end Transform
end Transclusion
