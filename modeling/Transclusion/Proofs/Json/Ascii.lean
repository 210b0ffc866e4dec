import Transclusion.Encoding
import Transclusion.Output

/-!
This module contains that JSON texts are ASCII (`Json.isAscii_print`), so that every encoding takes them.
-/

namespace Transclusion
namespace Text

def IsAscii (text : Text) : Prop :=
  ∀ c ∈ text, c.toNat < 128

instance (text : Text) : Decidable (IsAscii text) :=
  List.decidableBAll (fun c : Char => c.toNat < 128) text

variable {a b : Text} {c : Char}

@[simp]
theorem isAscii_nil : IsAscii [] := by
  simp [IsAscii]

@[simp]
theorem isAscii_cons_iff : IsAscii (c :: a) ↔ c.toNat < 128 ∧ IsAscii a := by
  simp [IsAscii]

@[simp]
theorem isAscii_append_iff : IsAscii (a ++ b) ↔ IsAscii a ∧ IsAscii b := by
  simp [IsAscii, or_imp, forall_and]

@[simp]
theorem isAscii_replicate (n : Nat) (h : c.toNat < 128) : IsAscii (List.replicate n c) := by
  intro d hd
  rw [List.eq_of_mem_replicate hd]
  exact h

@[simp]
theorem isAscii_digitChar (n : Nat) : n.digitChar.toNat < 128 := by
  by_cases h : n < 16
  . have hall : ∀ n < 16, n.digitChar.toNat < 128 := by decide
    exact hall n h
  . rw [Nat.digitChar_eq_star.mpr (Nat.not_lt.mp h)]
    decide

theorem IsAscii.of_subset (h : IsAscii a) (hb : b ⊆ a) : IsAscii b :=
  fun c hc => h c (hb hc)

theorem isAscii_flatMap {f : Char → Text} (h : ∀ c, IsAscii (f c)) (text : Text)
    : IsAscii (text.flatMap f) := by
  intro c hc
  obtain ⟨d, _, hc⟩ := List.mem_flatMap.mp hc
  exact h d c hc

theorem isAscii_intercalate {separator : Text} (h : IsAscii separator) {parts : List Text}
    (hparts : ∀ part ∈ parts, IsAscii part) : IsAscii (separator.intercalate parts) := by
  induction parts with
  | nil => exact isAscii_nil
  | cons part rest ih =>
    have ⟨hpart, hrest⟩ := List.forall_mem_cons.mp hparts
    cases rest with
    | nil => simpa using hpart
    | cons next rest =>
      rw [List.intercalate_cons_cons, isAscii_append_iff, isAscii_append_iff]
      exact ⟨⟨hpart, h⟩, ih hrest⟩

theorem isAscii_toDigits {base : Nat} (hbase : 1 < base) (n : Nat)
    : IsAscii (Nat.toDigits base n) := by
  induction n using Nat.strongRecOn with
  | ind n ih =>
    rw [Nat.toDigits_eq_if hbase]
    split
    . simp
    next h =>
      have hlt : n / base < n := Nat.div_lt_self (by omega) hbase
      simp [ih _ hlt]

theorem isAscii_ofNat (n : Nat) : IsAscii (ofNat n) :=
  isAscii_toDigits (by decide) n

theorem isAscii_ofInt (n : Int) : IsAscii (ofInt n) := by
  unfold ofInt
  split <;> simp [isAscii_ofNat]

theorem isAscii_ofNatPadded (width n : Nat) : IsAscii (ofNatPadded width n) := by
  simp [ofNatPadded, isAscii_ofNat]

theorem isAscii_ofNatHex (width n : Nat) : IsAscii (ofNatHex width n) := by
  simp [ofNatHex, isAscii_toDigits]

end Text

namespace Binary64

open Text

theorem isAscii_trimZeros {digits : Text} (h : IsAscii digits) : IsAscii (trimZeros digits) := by
  apply h.of_subset
  intro c hc
  rw [trimZeros, List.mem_reverse] at hc
  exact List.mem_reverse.mp ((List.dropWhile_sublist _).subset hc)

theorem isAscii_exponentText (n : Int) : IsAscii (exponentText n) := by
  unfold exponentText
  rw [isAscii_append_iff]
  refine ⟨?_, isAscii_ofNatPadded _ _⟩
  split <;> decide

theorem isAscii_digitsText (d : Digits) : IsAscii (digitsText d) := by
  have h := isAscii_trimZeros (isAscii_ofNat d.digits)
  have htake (n : Nat) := h.of_subset (List.take_subset n _)
  have hdrop (n : Nat) := h.of_subset (List.drop_subset n _)
  unfold digitsText
  dsimp only
  split
  . split
    . simp [h]
    . split
      . simp [h]
      . simp [htake, hdrop]
  . have htail := hdrop 1
    split <;> simp_all [isAscii_exponentText]

theorem isAscii_text (x : Binary64) : IsAscii x.text := by
  cases x with
  | nan _ =>
    change IsAscii "nan"
    decide
  | infinite negative => cases negative <;> decide
  | finite negative mantissa exponent =>
    have h : IsAscii
        (if mantissa = 0 then "0.0" else digitsText (shortestDigits mantissa exponent) : Text) := by
      split
      . decide
      . exact isAscii_digitsText _
    unfold text
    cases negative
    . exact h
    . simpa using h

end Binary64

namespace Json

open Text

theorem isAscii_codeEscape (n : Nat) : IsAscii (codeEscape n) := by
  simp [codeEscape, isAscii_ofNatHex]

theorem isAscii_floatText (x : Binary64) : IsAscii (floatText x) := by
  unfold floatText
  split
  . decide
  . split <;> decide
  . exact Binary64.isAscii_text _

theorem isAscii_lineBreak (indent depth : Nat) : IsAscii (lineBreak indent depth) := by
  simp [lineBreak]

theorem isAscii_block {opening closing : Char} (hopening : opening.toNat < 128)
    (hclosing : closing.toNat < 128) (indent depth : Nat) {items : List Text}
    (h : ∀ item ∈ items, IsAscii item) : IsAscii (block indent depth opening closing items) := by
  have hseparator : IsAscii (',' :: lineBreak indent (depth + 1)) := by
    simp [isAscii_lineBreak]
  unfold block
  split
  . simp [hopening, hclosing]
  . simp [hopening, hclosing, isAscii_lineBreak, isAscii_intercalate hseparator h]

variable [Surrogates]

theorem isAscii_stringChar (c : Char) : IsAscii (stringChar c) := by
  unfold stringChar
  split
  any_goals decide
  dsimp only
  split
  next h =>
    -- A stand-in counts as the surrogate itself, which is far beyond the printed characters.
    cases hcode : Surrogates.code? c with
    | none =>
      simp only [hcode, Option.getD_none, Bool.and_eq_true, decide_eq_true_eq] at h
      rw [isAscii_cons_iff]
      exact ⟨by omega, isAscii_nil⟩
    | some n =>
      have hn := (Surrogates.code?_eq_some_iff.mp hcode).1
      simp only [hcode, Option.getD_some, Bool.and_eq_true, decide_eq_true_eq, isSurrogate] at h hn
      omega
  . split <;> simp [isAscii_codeEscape]

theorem isAscii_stringText (text : Text) : IsAscii (stringText text) := by
  simp [stringText, isAscii_flatMap isAscii_stringChar]

mutual

theorem isAscii_valueText (indent depth : Nat) : (value : Value) →
    IsAscii (valueText indent depth value)
  | .null => by
    unfold valueText
    decide
  | .bool b => by
    unfold valueText
    cases b <;> decide
  | .int n => by
    unfold valueText
    exact isAscii_ofInt n
  | .float x => by
    unfold valueText
    exact isAscii_floatText x
  | .text t => by
    unfold valueText
    exact isAscii_stringText t
  | .pair first second => by
    unfold valueText
    apply isAscii_block (by decide) (by decide)
    simp [isAscii_valueText indent (depth + 1) first, isAscii_valueText indent (depth + 1) second]
  | .list items => by
    unfold valueText
    exact isAscii_block (by decide) (by decide) _ _ (isAscii_itemTexts indent (depth + 1) items)
  | .map entries => by
    unfold valueText
    exact isAscii_block (by decide) (by decide) _ _ (isAscii_entryTexts indent (depth + 1) entries)
  | .date _ | .moment _ | .bytes _ | .members _ | .held _ _ => by
    unfold valueText
    exact isAscii_stringText _

theorem isAscii_itemTexts (indent depth : Nat) : (items : List Value) →
    ∀ text ∈ itemTexts indent depth items, IsAscii text
  | [] => by simp [itemTexts]
  | item :: rest => by
    rw [itemTexts, List.forall_mem_cons]
    exact ⟨isAscii_valueText indent depth item, isAscii_itemTexts indent depth rest⟩

theorem isAscii_entryTexts (indent depth : Nat) : (entries : List (Value × Value)) →
    ∀ text ∈ entryTexts indent depth entries, IsAscii text
  | [] => by simp [entryTexts]
  | (key, value) :: rest => by
    rw [entryTexts, List.forall_mem_cons]
    refine ⟨?_, isAscii_entryTexts indent depth rest⟩
    simp [isAscii_stringText, isAscii_valueText indent depth value]

end

theorem isAscii_print (indent : Nat) (value : Value) : IsAscii (print indent value) :=
  isAscii_valueText indent 0 value

end Json

theorem Output.isAscii_success [Surrogates] {o : Output} (h : o.json = true)
    (data : List (Text × Value)) (message status : Text)
    : Text.IsAscii (o.success data message status) := by
  simp [success, h, line, Json.isAscii_print]

theorem Encoding.check_of_isAscii [Surrogates] (e : Encoding) {text : Text} (h : text.IsAscii)
    : e.check text = .ok () :=
  check_eq_ok_iff.mpr fun c hc => e.takes_of_ascii (h c hc)

end Transclusion
