import Transclusion.Decimal.Integer
import Transclusion.Proofs.Text.Case
import Transclusion.Proofs.Text.Trim

/-!
This module contains what texts are read as integers (`readInt?_eq_some_iff`): a sign and groups of digits
with single underscores between them (`Numeral`), with blanks around it. The decimal text of an integer is
one of them (`exists_text_eq_ofInt`).
-/

namespace Transclusion
namespace Text

/-! ## Digits -/

theorem exists_start_of_digitValue? {c : Char} {d : Nat} (h : digitValue? c = some d)
    : d < 10 ∧ ∃ start ∈ digitZeros, c.toNat = start + d := by
  unfold digitValue? at h
  split at h
  . split at h
    next hdigit =>
      rw [Char.isDigit_iff_toNat] at hdigit
      have hc : c.toNat - 48 = d := Option.some.inj h
      refine ⟨?_, 48, List.mem_cons_self, ?_⟩ <;>
        . simp only [Char.reduceToNat] at hdigit
          omega
    next => simp at h
  . rw [Option.map_eq_some_iff] at h
    obtain ⟨start, hfind, hd⟩ := h
    have hmem := List.mem_of_find?_eq_some hfind
    have hrange := List.find?_some hfind
    simp only [Bool.and_eq_true, decide_eq_true_eq] at hrange
    refine ⟨?_, start, hmem, ?_⟩ <;> omega

theorem forall_isDigit {P : Char → Bool} (h : ∀ start ∈ digitZeros, ∀ d < 10, P (Char.ofNat (start + d)) = true)
    {c : Char} (hc : isDigit c = true) : P c = true := by
  obtain ⟨d, hd⟩ := Option.isSome_iff_exists.mp hc
  obtain ⟨hlt, start, hstart, heq⟩ := exists_start_of_digitValue? hd
  have := h start hstart d hlt
  rwa [← heq, Char.ofNat_toNat] at this

theorem isBlank_of_isDigit {c : Char} (hc : isDigit c = true) : isBlank c = false := by
  have := forall_isDigit (P := fun c => !isBlank c) (by decide +kernel) hc
  simpa using this

theorem ne_of_isDigit {c d : Char} (hc : isDigit c = true) (hd : isDigit d = false) : c ≠ d := by
  rintro rfl
  rw [hc] at hd
  cases hd

theorem digitValue?_of_isDigit {c : Char} (h : c.isDigit = true)
    : digitValue? c = some (c.toNat - 48) := by
  have hbounds := Char.isDigit_iff_toNat.mp h
  simp only [Char.reduceToNat] at hbounds
  unfold digitValue?
  rw [if_pos (by omega), if_pos h]

theorem isDigit_of_mem_ofNat {n : Nat} {c : Char} (hc : c ∈ ofNat n) : isDigit c = true := by
  unfold isDigit
  rw [digitValue?_of_isDigit (Nat.isDigit_of_mem_toDigits (by decide) (by decide) hc)]
  rfl

theorem digitsValue_eq_ofDigitChars {digits : Text} (h : ∀ c ∈ digits, c.isDigit = true)
    : digitsValue digits = Nat.ofDigitChars 10 digits 0 := by
  have hfold : ∀ (digits : Text) (n : Nat), (∀ c ∈ digits, c.isDigit = true) →
      digits.foldl (fun n c => 10 * n + (digitValue? c).getD 0) n = Nat.ofDigitChars 10 digits n := by
    intro digits
    induction digits with
    | nil => exact fun _ _ => rfl
    | cons c digits ih =>
      intro n h
      rw [List.foldl_cons, Nat.ofDigitChars_cons, digitValue?_of_isDigit (h c List.mem_cons_self)]
      exact ih _ fun c hc => h c (List.mem_cons_of_mem _ hc)
  exact hfold digits 0 h

theorem digitsValue_ofNat (n : Nat) : digitsValue (ofNat n) = n := by
  have hdigits : ∀ c ∈ ofNat n, c.isDigit = true := by
    intro c hc
    exact Nat.isDigit_of_mem_toDigits (by decide) (by decide) hc
  rw [digitsValue_eq_ofDigitChars hdigits]
  exact Nat.ofDigitChars_toDigits (by decide) (by decide)

end Text

namespace Decimal

/-! ## Numerals -/

inductive Sign
  | none
  | plus
  | minus

namespace Sign

def text : Sign → Text
  | none => []
  | plus => ['+']
  | minus => ['-']

def isNegative : Sign → Bool
  | minus => true
  | _ => false

theorem mem_text {sign : Sign} {c : Char} (h : c ∈ sign.text) : c = '+' ∨ c = '-' := by
  cases sign with
  | none => cases h
  | plus => exact .inl (List.mem_singleton.mp h)
  | minus => exact .inr (List.mem_singleton.mp h)

end Sign

structure Numeral where
  sign : Sign
  groups : List Text
  groups_ne_nil : groups ≠ []
  ne_nil : ∀ group ∈ groups, group ≠ []
  isDigit : ∀ group ∈ groups, ∀ c ∈ group, Text.isDigit c = true

namespace Numeral

def text (m : Numeral) : Text :=
  m.sign.text ++ (['_'] : Text).intercalate m.groups

def value (m : Numeral) : Int :=
  applySign m.sign.isNegative (Text.digitsValue m.groups.flatten)

def ofDigits (sign : Sign) (digits : Text) (hne : digits ≠ [])
    (hdigits : ∀ c ∈ digits, Text.isDigit c = true) : Numeral where
  sign
  groups := [digits]
  groups_ne_nil := by simp
  ne_nil := by simpa using hne
  isDigit := by simpa using hdigits

theorem text_ofDigits {sign : Sign} {digits : Text} (hne : digits ≠ [])
    (hdigits : ∀ c ∈ digits, Text.isDigit c = true)
    : (ofDigits sign digits hne hdigits).text = sign.text ++ digits := by
  simp [text, ofDigits, List.intercalate]

theorem value_ofDigits {sign : Sign} {digits : Text} (hne : digits ≠ [])
    (hdigits : ∀ c ∈ digits, Text.isDigit c = true)
    : (ofDigits sign digits hne hdigits).value
        =
      applySign sign.isNegative (Text.digitsValue digits) := by
  simp [value, ofDigits]

end Numeral

theorem exists_cutSign (text : Text)
    : ∃ sign : Sign, (cutSign text).1 = sign.isNegative ∧ text = sign.text ++ (cutSign text).2 := by
  unfold cutSign
  split
  . exact ⟨.minus, rfl, rfl⟩
  . exact ⟨.plus, rfl, rfl⟩
  . exact ⟨.none, rfl, rfl⟩

theorem cutSign_append (sign : Sign) {rest : Text} (hplus : rest.head? ≠ some '+')
    (hminus : rest.head? ≠ some '-') : cutSign (sign.text ++ rest) = (sign.isNegative, rest) := by
  cases sign with
  | none =>
    change cutSign rest = (false, rest)
    unfold cutSign
    split
    next => exact absurd rfl hminus
    next => exact absurd rfl hplus
    next => rfl
  | plus => rfl
  | minus => rfl

/-! ## Reading -/

theorem digitIn?_ten_of_isAlpha {c : Char} (h : c.isAlpha = true)
    : digitIn? 10 c = none ∧ Text.digitValue? c = none := by
  have hlt : c.toNat < 128 := by
    have hcases : c.isUpper = true ∨ c.isLower = true := Bool.or_eq_true_iff.mp h
    rcases hcases with hupper | hlower
    . have hle : c.val ≤ 'Z'.val := (of_decide_eq_true hupper).2
      exact lt_of_le_of_lt (UInt32.le_iff_toNat_le.mp hle) (by decide)
    . have hle : c.val ≤ 'z'.val := of_decide_eq_true (Bool.and_eq_true_iff.mp hlower).2
      exact lt_of_le_of_lt (UInt32.le_iff_toNat_le.mp hle) (by decide)
  exact Text.of_ascii
    (P := fun c => c.isAlpha = true → digitIn? 10 c = none ∧ Text.digitValue? c = none)
    (by decide +kernel) hlt h

theorem digitIn?_ten (c : Char) : digitIn? 10 c = Text.digitValue? c := by
  by_cases halpha : c.isAlpha = true
  . rw [(digitIn?_ten_of_isAlpha halpha).1, (digitIn?_ten_of_isAlpha halpha).2]
  . unfold digitIn?
    rw [if_neg halpha]
    cases hvalue : Text.digitValue? c with
    | none => rfl
    | some d => simp [(Text.exists_start_of_digitValue? hvalue).1]

theorem withoutBase_ten (digits : Text) : withoutBase 10 digits = digits := by
  unfold withoutBase
  split
  . rw [if_neg]
    simp [baseLetter?]
  . rfl

theorem valueIn_ten (digits : Text) : valueIn 10 digits = Text.digitsValue digits := by
  unfold valueIn Text.digitsValue
  simp only [digitIn?_ten]

theorem readInt?_eq (text : Text)
    : readInt? text
        =
      (let (negative, unsigned) := cutSign (Text.trimBoth isNumberBlank text)
      if (unsigned.splitOn '_').all fun group => !group.isEmpty && group.all Text.isDigit then
        some (applySign negative (Text.digitsValue (unsigned.filter (· != '_'))))
      else none) := by
  unfold readInt? readIn?
  simp only [withoutBase_ten, valueIn_ten, digitIn?_ten]
  rfl

theorem readInt?_append {before after : Text} (hbefore : ∀ c ∈ before, isNumberBlank c = true)
    (hafter : ∀ c ∈ after, isNumberBlank c = true) (text : Text)
    : readInt? (before ++ text ++ after) = readInt? text := by
  rw [readInt?_eq, readInt?_eq, Text.trimBoth_append hbefore hafter]

theorem mem_intercalate_cases {c d : Char} {parts : List Text}
    (h : c ∈ ([d] : Text).intercalate parts) : c = d ∨ ∃ part ∈ parts, c ∈ part := by
  induction parts with
  | nil => simp at h
  | cons part parts ih =>
    by_cases hparts : parts = []
    . rw [hparts, List.intercalate_singleton] at h
      exact .inr ⟨part, List.mem_cons_self, h⟩
    . rw [List.intercalate_cons_of_ne_nil hparts, List.mem_append, List.mem_append,
        List.mem_singleton] at h
      rcases h with (h | h) | h
      . exact .inr ⟨part, List.mem_cons_self, h⟩
      . exact .inl h
      . refine (ih h).imp_right ?_
        rintro ⟨other, hother, hc⟩
        exact ⟨other, List.mem_cons_of_mem _ hother, hc⟩

theorem filter_intercalate {d : Char} {parts : List Text} (h : ∀ part ∈ parts, d ∉ part)
    : (([d] : Text).intercalate parts).filter (· != d) = parts.flatten := by
  have hpart : ∀ part ∈ parts, part.filter (· != d) = part := by
    intro part hpart
    rw [List.filter_eq_self]
    intro c hc
    rw [bne_iff_ne]
    rintro rfl
    exact h part hpart hc
  induction parts with
  | nil => rfl
  | cons part parts ih =>
    have ih := ih (fun other hother => h other (List.mem_cons_of_mem _ hother)) fun other hother =>
      hpart other (List.mem_cons_of_mem _ hother)
    by_cases hparts : parts = []
    . rw [hparts, List.intercalate_singleton, hpart part List.mem_cons_self, List.flatten_singleton]
    . rw [List.intercalate_cons_of_ne_nil hparts, List.filter_append, List.filter_append, ih,
        hpart part List.mem_cons_self, List.flatten_cons]
      simp

namespace Numeral

theorem not_mem_group {m : Numeral} {group : Text} (h : group ∈ m.groups) : '_' ∉ group := by
  intro hc
  have := m.isDigit group h '_' hc
  revert this
  decide

theorem mem_digits {m : Numeral} {c : Char} (h : c ∈ (['_'] : Text).intercalate m.groups)
    : c = '_' ∨ Text.isDigit c = true := by
  rcases mem_intercalate_cases h with rfl | ⟨group, hgroup, hc⟩
  . exact .inl rfl
  . exact .inr (m.isDigit group hgroup c hc)

theorem isNumberBlank_of_mem {m : Numeral} {c : Char} (h : c ∈ m.text) : isNumberBlank c = false := by
  rw [text, List.mem_append] at h
  rcases h with h | h
  . rcases Sign.mem_text h with rfl | rfl <;> rfl
  . rcases mem_digits h with rfl | hc
    . rfl
    . rw [isNumberBlank, Text.isBlank_of_isDigit hc, Bool.false_and]

theorem trimBoth_text (m : Numeral) : Text.trimBoth isNumberBlank m.text = m.text := by
  exact Text.trimBoth_of_forall fun c hc => isNumberBlank_of_mem hc

theorem cutSign_text (m : Numeral)
    : cutSign m.text = (m.sign.isNegative, (['_'] : Text).intercalate m.groups) := by
  apply cutSign_append <;>
    . intro hhead
      rcases mem_digits (List.mem_of_head? hhead) with h | h <;> revert h <;> decide

end Numeral

theorem readInt?_eq_some_iff {text : Text} {n : Int}
    : readInt? text = some n
        ↔
      ∃ (before after : Text) (m : Numeral), text = before ++ m.text ++ after ∧
        (∀ c ∈ before, isNumberBlank c = true) ∧ (∀ c ∈ after, isNumberBlank c = true) ∧
        m.value = n := by
  constructor
  . intro h
    obtain ⟨before, after, htext, hbefore, hafter⟩ := Text.exists_eq_trimBoth isNumberBlank text
    obtain ⟨sign, hnegative, htrimmed⟩ := exists_cutSign (Text.trimBoth isNumberBlank text)
    rw [readInt?_eq] at h
    simp only [Option.ite_none_right_eq_some, List.all_eq_true, Bool.and_eq_true,
      Bool.not_eq_true', List.isEmpty_eq_false_iff, Option.some.injEq] at h
    obtain ⟨hgroups, hvalue⟩ := h
    let m : Numeral := {
      sign
      groups := (cutSign (Text.trimBoth isNumberBlank text)).2.splitOn '_'
      groups_ne_nil := List.splitOn_ne_nil _ _
      ne_nil := fun group hgroup => (hgroups group hgroup).1
      isDigit := fun group hgroup => (hgroups group hgroup).2
    }
    have hm : m.text = Text.trimBoth isNumberBlank text := by
      rw [Numeral.text, List.intercalate_splitOn]
      exact htrimmed.symm
    refine ⟨before, after, m, by rw [hm]; exact htext, hbefore, hafter, ?_⟩
    rw [Numeral.value, ← filter_intercalate fun group hgroup => Numeral.not_mem_group hgroup,
      List.intercalate_splitOn, ← hvalue, hnegative]
  . rintro ⟨before, after, m, rfl, hbefore, hafter, rfl⟩
    have hsplit : ((['_'] : Text).intercalate m.groups).splitOn '_' = m.groups :=
      List.splitOn_intercalate '_' (fun group hgroup => Numeral.not_mem_group hgroup) m.groups_ne_nil
    rw [readInt?_eq, Text.trimBoth_append hbefore hafter, m.trimBoth_text, m.cutSign_text]
    simp only [hsplit, filter_intercalate fun group hgroup => Numeral.not_mem_group hgroup]
    rw [if_pos]
    . rfl
    . simp only [List.all_eq_true, Bool.and_eq_true, Bool.not_eq_true', List.isEmpty_eq_false_iff]
      exact fun group hgroup => ⟨m.ne_nil group hgroup, m.isDigit group hgroup⟩

theorem exists_text_eq_ofInt (n : Int) : ∃ m : Numeral, m.text = Text.ofInt n ∧ m.value = n := by
  have hne : Text.ofNat n.natAbs ≠ [] := Nat.toDigits_ne_nil
  have hdigits : ∀ c ∈ Text.ofNat n.natAbs, Text.isDigit c = true := fun c hc =>
    Text.isDigit_of_mem_ofNat hc
  unfold Text.ofInt
  split
  next h =>
    refine ⟨.ofDigits .minus _ hne hdigits, Numeral.text_ofDigits hne hdigits, ?_⟩
    rw [Numeral.value_ofDigits, Text.digitsValue_ofNat]
    change -(n.natAbs : Int) = n
    omega
  next h =>
    refine ⟨.ofDigits .none _ hne hdigits, Numeral.text_ofDigits hne hdigits, ?_⟩
    rw [Numeral.value_ofDigits, Text.digitsValue_ofNat]
    change (n.natAbs : Int) = n
    omega

end Decimal
end Transclusion
