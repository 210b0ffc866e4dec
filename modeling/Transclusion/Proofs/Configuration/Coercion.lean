import Transclusion.Configuration.Coercion
import Transclusion.Proofs.Decimal.Integer

/-!
This module contains how the texts of settings are read (`coerce_reads`): white space around a text
does not matter and no text is refused, but for whole numbers with an information separator beside
them. These count as white space when the forms of texts are told apart, and not when the number is
read.
-/

namespace Transclusion

namespace Text

variable {c : Char} {text : Text}

theorem mem_lower (hlower : lowerChar c = [c]) (h : c ∈ text) : c ∈ lower text := by
  have hsigma : (c == 'Σ') = false := by
    rw [beq_eq_false_iff_ne]
    rintro rfl
    revert hlower
    decide +kernel
  unfold lower
  generalize ([] : Text) = before
  induction text generalizing before with
  | nil => cases h
  | cons d text ih =>
    rw [lower.go, List.mem_append]
    rcases List.mem_cons.mp h with rfl | h
    . refine .inl ?_
      rw [hsigma, hlower]
      exact List.mem_singleton_self c
    . exact .inr (ih h (d :: before))

theorem CaseRanges.map_of_outside {ranges : CaseRanges} {n : Nat}
    (h : ∀ range ∈ ranges, n < range.1 ∨ range.2.1 < n) : ranges.map n = n := by
  unfold map
  split
  next lo hi step offset hfound =>
    have hoff : n < lo ∨ hi < n := h _ (List.mem_of_find?_eq_some hfound)
    have hwithin := List.find?_some hfound
    simp only [Bool.and_eq_true, decide_eq_true_eq] at hwithin
    omega
  next => rfl

theorem lowerRanges_apart : ∀ start ∈ digitZeros, start = 0x30 ∨
    ∀ range ∈ lowerRanges, start + 10 ≤ range.1 ∨ range.2.1 < start := by
  decide +kernel

theorem lowerChar_of_isDigit (h : isDigit c = true) : lowerChar c = [c] := by
  unfold lowerChar
  by_cases hascii : c.toNat < 128
  . have hdigit := of_ascii (P := fun c => isDigit c = true → c.toLower = c) (by decide +kernel) hascii
    rw [if_pos hascii, hdigit h]
  . have hdotted : (c == 'İ') = false := by
      rw [beq_eq_false_iff_ne]
      exact ne_of_isDigit h (by decide)
    obtain ⟨d, hd⟩ := Option.isSome_iff_exists.mp h
    obtain ⟨hlt, start, hstart, heq⟩ := exists_start_of_digitValue? hd
    have hmap : lowerRanges.map c.toNat = c.toNat := by
      apply CaseRanges.map_of_outside
      intro range hrange
      rcases lowerRanges_apart start hstart with rfl | hapart
      . omega
      . have := hapart range hrange
        omega
    rw [if_neg hascii, hdotted, if_neg Bool.false_ne_true, hmap, Char.ofNat_toNat]

theorem head?_ne_of_isDigit {d : Char} (h : ∀ c ∈ text, isDigit c = true) (hd : isDigit d = false)
    : text.head? ≠ some d := by
  intro hhead
  exact ne_of_isDigit (h d (List.mem_of_head? hhead)) hd rfl

end Text

namespace Configuration

open Text

variable {text : Text} {c : Char}

/-! ## The forms of texts -/

def IsTruthWord (text : Text) : Prop :=
  lower text = "true".toList ∨ lower text = "false".toList

def IsWholeNumber (text : Text) : Prop :=
  ∃ (sign : Decimal.Sign) (digits : Text), text = sign.text ++ digits ∧ digits ≠ [] ∧
    ∀ c ∈ digits, isDigit c = true

def IsDecimalNumber (text : Text) : Prop :=
  ∃ (sign : Decimal.Sign) (whole fraction : Text), text = sign.text ++ (whole ++ '.' :: fraction) ∧
    whole ++ fraction ≠ [] ∧ ∀ c ∈ whole ++ fraction, isDigit c = true

def IsJsonText [Surrogates] (text : Text) : Prop :=
  (∃ inner, text = '\x7b' :: inner ++ ['\x7d'] ∨ text = '[' :: inner ++ [']']) ∧
    ∃ value, Json.read text = .ok value

def IsSeparator (c : Char) : Prop :=
  28 ≤ c.toNat ∧ c.toNat ≤ 31

instance : DecidablePred IsSeparator := fun c =>
  inferInstanceAs (Decidable (28 ≤ c.toNat ∧ c.toNat ≤ 31))

def Barred (text : Text) : Prop :=
  IsWholeNumber (strip text) ∧ ∃ c ∈ text, IsSeparator c

theorem isInteger_iff : isInteger text = true ↔ IsWholeNumber text := by
  constructor
  . intro h
    obtain ⟨sign, -, htext⟩ := Decimal.exists_cutSign text
    simp only [isInteger, Bool.and_eq_true, Bool.not_eq_true', List.isEmpty_eq_false_iff,
      List.all_eq_true] at h
    exact ⟨sign, _, htext, h⟩
  . rintro ⟨sign, digits, rfl, hne, hdigits⟩
    rw [isInteger, Decimal.cutSign_append sign (head?_ne_of_isDigit hdigits (by decide))
      (head?_ne_of_isDigit hdigits (by decide))]
    simp only [Bool.and_eq_true, Bool.not_eq_true', List.isEmpty_eq_false_iff, List.all_eq_true]
    exact ⟨hne, hdigits⟩

theorem isDecimalNumber_of_float? {x : Binary64} (h : float? text = some x)
    : IsDecimalNumber (strip text) := by
  obtain ⟨sign, -, hstrip⟩ := Decimal.exists_cutSign (strip text)
  unfold float? at h
  dsimp only at h
  split at h
  next whole fraction hparts =>
    split at h
    next hdigits =>
      simp only [Bool.and_eq_true, Bool.not_eq_true', List.isEmpty_eq_false_iff,
        List.all_eq_true] at hdigits
      refine ⟨sign, whole, fraction, ?_, hdigits.2, hdigits.1⟩
      have hjoined : (['.'] : Text).intercalate [whole, fraction] = (Decimal.cutSign (strip text)).2 := by
        rw [← hparts]
        exact List.intercalate_splitOn '.'
      rw [← hjoined] at hstrip
      simpa [List.intercalate] using hstrip
    next => cases h
  next => cases h

theorem exists_inner {first last : Char} (hne : first ≠ last) (hhead : text.head? = some first)
    (hlast : text.getLast? = some last) : ∃ inner, text = first :: inner ++ [last] := by
  obtain ⟨front, rfl⟩ := List.getLast?_eq_some_iff.mp hlast
  cases front with
  | nil => exact absurd (Option.some.inj hhead).symm hne
  | cons c inner =>
    cases hhead
    exact ⟨inner, rfl⟩

theorem isJsonText_of_json? [Surrogates] {value : Value} (h : json? text = some value)
    : IsJsonText (strip text) := by
  unfold json? at h
  dsimp only at h
  split at h
  next hbracketed =>
    refine ⟨?_, value, ?_⟩
    . unfold isBracketed at hbracketed
      split at hbracketed
      next hhead hlast =>
        obtain ⟨inner, hinner⟩ := exists_inner (by decide) hhead hlast
        exact ⟨inner, .inl hinner⟩
      next hhead hlast =>
        obtain ⟨inner, hinner⟩ := exists_inner (by decide) hhead hlast
        exact ⟨inner, .inr hinner⟩
      next => cases hbracketed
    . cases hread : Json.read (strip text) with
      | error fault => simp [hread, Except.toOption] at h
      | ok found =>
        rw [hread] at h
        cases h
        rfl
  next => cases h

theorem not_isTruthWord_of_mem (hlower : lowerChar c = [c]) (hmem : c ∈ text)
    (hletter : c ∉ "truefals".toList) : ¬ IsTruthWord text := by
  have hfound := mem_lower hlower hmem
  rintro (h | h) <;>
    . rw [h] at hfound
      revert hletter hfound
      simp only [String.reduceToList, List.mem_cons, List.not_mem_nil]
      tauto

theorem IsWholeNumber.exists_digit (h : IsWholeNumber text) : ∃ c ∈ text, isDigit c = true := by
  obtain ⟨sign, digits, rfl, hne, hdigits⟩ := h
  obtain ⟨c, hc⟩ := List.exists_mem_of_ne_nil digits hne
  exact ⟨c, List.mem_append_right _ hc, hdigits c hc⟩

theorem IsWholeNumber.not_isTruthWord (h : IsWholeNumber text) : ¬ IsTruthWord text := by
  obtain ⟨c, hc, hdigit⟩ := h.exists_digit
  refine not_isTruthWord_of_mem (lowerChar_of_isDigit hdigit) hc ?_
  intro hletter
  have hletters : ("truefals".toList.all fun c => !isDigit c) = true := by decide
  have := List.all_eq_true.mp hletters c hletter
  rw [hdigit] at this
  cases this

theorem bool?_eq_none_iff : bool? text = none ↔ ¬ IsTruthWord (strip text) := by
  unfold bool? IsTruthWord
  dsimp only
  split
  next h => simp [h]
  next hother =>
    split
    next h => simp [h]
    next h => simpa using ⟨hother, h⟩

/-! ## White space around numbers -/

theorem isNumberBlank_iff : Decimal.isNumberBlank c = true ↔ isBlank c = true ∧ ¬ IsSeparator c := by
  simp only [Decimal.isNumberBlank, IsSeparator, Bool.and_eq_true, Bool.not_eq_true',
    Bool.and_eq_false_iff, decide_eq_false_iff_not, not_and_or]

theorem not_isSeparator_of_isDigit (h : isDigit c = true) : ¬ IsSeparator c := by
  rintro ⟨hlow, hhigh⟩
  have hblank : isBlank c = true := by
    simp only [isBlank, Bool.or_eq_true, Bool.and_eq_true, decide_eq_true_eq]
    omega
  rw [isBlank_of_isDigit h] at hblank
  cases hblank

theorem not_isSeparator_of_mem_text {m : Decimal.Numeral} (h : c ∈ m.text) : ¬ IsSeparator c := by
  rw [Decimal.Numeral.text, List.mem_append] at h
  rcases h with h | h
  . rcases Decimal.Sign.mem_text h with rfl | rfl <;> decide
  . rcases Decimal.Numeral.mem_digits h with rfl | hdigit
    . decide
    . exact not_isSeparator_of_isDigit hdigit

theorem not_isSeparator_of_readInt? {n : Int} (h : Decimal.readInt? text = some n) (hc : c ∈ text)
    : ¬ IsSeparator c := by
  obtain ⟨before, after, m, rfl, hbefore, hafter, -⟩ := Decimal.readInt?_eq_some_iff.mp h
  rw [List.mem_append, List.mem_append] at hc
  rcases hc with (hc | hc) | hc
  . exact (isNumberBlank_iff.mp (hbefore c hc)).2
  . exact not_isSeparator_of_mem_text hc
  . exact (isNumberBlank_iff.mp (hafter c hc)).2

def misread (text : Text) : Failure :=
  .invalidValue ("invalid literal for int() with base 10: " ++ (quote text).take 200)

theorem int?_of_not_isWholeNumber (h : ¬ IsWholeNumber (strip text)) : int? text = .ok none := by
  unfold int?
  rw [if_neg]
  rwa [isInteger_iff]

theorem int?_of_barred (h : Barred text) : int? text = .error (misread text) := by
  obtain ⟨hwhole, c, hc, hseparator⟩ := h
  unfold int?
  rw [if_pos (isInteger_iff.mpr hwhole)]
  split
  next n hread => exact absurd hseparator (not_isSeparator_of_readInt? hread hc)
  next => rfl

theorem readInt?_eq_strip (h : ∀ c ∈ text, ¬ IsSeparator c)
    : Decimal.readInt? text = Decimal.readInt? (strip text) := by
  obtain ⟨before, after, htext, hbefore, hafter⟩ := exists_eq_trimBoth isBlank text
  conv_lhs => rw [htext]
  refine Decimal.readInt?_append ?_ ?_ _
  . intro c hc
    refine isNumberBlank_iff.mpr ⟨hbefore c hc, h c ?_⟩
    rw [htext]
    exact List.mem_append_left _ (List.mem_append_left _ hc)
  . intro c hc
    refine isNumberBlank_iff.mpr ⟨hafter c hc, h c ?_⟩
    rw [htext]
    exact List.mem_append_right _ hc

theorem exists_readInt? (h : IsWholeNumber text) : ∃ n, Decimal.readInt? text = some n := by
  obtain ⟨sign, digits, rfl, hne, hdigits⟩ := h
  refine ⟨_, Decimal.readInt?_eq_some_iff.mpr ⟨[], [], .ofDigits sign digits hne hdigits, ?_, ?_, ?_,
    rfl⟩⟩
  . rw [Decimal.Numeral.text_ofDigits, List.nil_append, List.append_nil]
  . simp
  . simp

/-! ## Reading -/

theorem strip_strip (text : Text) : strip (strip text) = strip text :=
  trimBoth_trimBoth isBlank text

theorem int?_eq_strip (h : ¬ Barred text) : int? text = int? (strip text) := by
  unfold int?
  rw [strip_strip]
  by_cases hwhole : IsWholeNumber (strip text)
  . have hapart : ∀ c ∈ text, ¬ IsSeparator c := fun c hc hseparator => h ⟨hwhole, c, hc, hseparator⟩
    obtain ⟨n, hread⟩ := exists_readInt? hwhole
    rw [readInt?_eq_strip hapart, hread]
  . rw [← isInteger_iff] at hwhole
    rw [if_neg hwhole, if_neg hwhole]

theorem exists_int?_eq (h : ¬ Barred text) : ∃ found, int? text = .ok found := by
  by_cases hwhole : IsWholeNumber (strip text)
  . obtain ⟨n, hread⟩ := exists_readInt? hwhole
    refine ⟨some n, ?_⟩
    rw [int?_eq_strip h, int?, strip_strip, if_pos (isInteger_iff.mpr hwhole), hread]
  . exact ⟨none, int?_of_not_isWholeNumber hwhole⟩

theorem isWholeNumber_ofInt (n : Int) : IsWholeNumber (ofInt n) := by
  have hdigits : ∀ c ∈ ofNat n.natAbs, isDigit c = true := fun c hc => isDigit_of_mem_ofNat hc
  unfold ofInt
  split
  . exact ⟨.minus, _, rfl, Nat.toDigits_ne_nil, hdigits⟩
  . exact ⟨.none, _, rfl, Nat.toDigits_ne_nil, hdigits⟩

theorem strip_of_isWholeNumber (h : IsWholeNumber text) : strip text = text := by
  obtain ⟨sign, digits, rfl, -, hdigits⟩ := h
  apply trimBoth_of_forall
  intro c hc
  rw [List.mem_append] at hc
  rcases hc with hc | hc
  . rcases Decimal.Sign.mem_text hc with rfl | rfl <;> rfl
  . exact isBlank_of_isDigit (hdigits c hc)

theorem not_barred_of_isWholeNumber (h : IsWholeNumber text) : ¬ Barred text := by
  obtain ⟨n, hread⟩ := exists_readInt? h
  rintro ⟨-, c, hc, hseparator⟩
  exact not_isSeparator_of_readInt? hread hc hseparator

section Reading

variable [Surrogates]

def valueWith (text : Text) : Option Int → Value
  | some n => .int n
  | none =>
    match float? text with
    | some x => .float x
    | none =>
      match json? text with
      | some value => value
      | none => .text (if (strip text).isEmpty then text else strip text)

theorem coerce_eq (text : Text)
    : coerce text
        =
      (match bool? text with
      | some b => .ok (.bool b)
      | none => (int? text).map (valueWith text)) := by
  unfold coerce
  cases bool? text with
  | some b => rfl
  | none =>
    dsimp only
    cases int? text with
    | error e => rfl
    | ok found =>
      cases found with
      | some n => rfl
      | none =>
        simp only [Except.map, valueWith]
        cases float? text with
        | some x => rfl
        | none => cases json? text <;> rfl

theorem coerce_of_not_isTruthWord (h : ¬ IsTruthWord (strip text))
    : coerce text = (int? text).map (valueWith text) := by
  rw [coerce_eq, bool?_eq_none_iff.mpr h]

theorem coerce_of_barred (h : Barred text) : coerce text = .error (misread text) := by
  rw [coerce_of_not_isTruthWord h.1.not_isTruthWord, int?_of_barred h]
  rfl

theorem exists_coerce_eq (h : ¬ Barred text) : ∃ value, coerce text = .ok value := by
  obtain ⟨found, hint⟩ := exists_int?_eq h
  rw [coerce_eq, hint]
  split <;> exact ⟨_, rfl⟩

theorem valueWith_strip (h : strip text ≠ []) (found : Option Int)
    : valueWith (strip text) found = valueWith text found := by
  have hfloat : float? (strip text) = float? text := by
    unfold float?
    rw [strip_strip]
  have hjson : json? (strip text) = json? text := by
    unfold json?
    rw [strip_strip]
  have hfull : (strip text).isEmpty = false := List.isEmpty_eq_false_iff.mpr h
  unfold valueWith
  rw [hfloat, hjson, strip_strip, hfull]
  rfl

theorem coerce_strip (h : ¬ Barred text) (hne : strip text ≠ [])
    : coerce text = coerce (strip text) := by
  have hbool : bool? (strip text) = bool? text := by
    unfold bool?
    rw [strip_strip]
  have hvalue : valueWith (strip text) = valueWith text := funext (valueWith_strip hne)
  rw [coerce_eq, coerce_eq, hbool, hvalue, int?_eq_strip h]

theorem coerce_of_isBlank (h : ∀ c ∈ text, isBlank c = true) : coerce text = .ok (.text text) := by
  have hstrip : strip text = [] := trimBoth_eq_nil_iff.mpr h
  have hfloat : float? text = none := by
    unfold float?
    rw [hstrip]
    rfl
  have hjson : json? text = none := by
    unfold json?
    rw [hstrip]
    rfl
  have hword : ¬ IsTruthWord (strip text) := by
    rw [hstrip]
    rintro (h | h) <;> cases h
  have hwhole : ¬ IsWholeNumber (strip text) := by
    rw [hstrip]
    intro h
    obtain ⟨c, hc, -⟩ := h.exists_digit
    cases hc
  rw [coerce_of_not_isTruthWord hword, int?_of_not_isWholeNumber hwhole]
  simp [Except.map, valueWith, hfloat, hjson, hstrip]

theorem coerce_plain (hne : strip text ≠ []) (hword : ¬ IsTruthWord (strip text))
    (hwhole : ¬ IsWholeNumber (strip text)) (hdecimal : ¬ IsDecimalNumber (strip text))
    (hjson : ¬ IsJsonText (strip text)) : coerce text = .ok (.text (strip text)) := by
  have hfloat : float? text = none := by
    rw [Option.eq_none_iff_forall_ne_some]
    exact fun x hx => hdecimal (isDecimalNumber_of_float? hx)
  have hjson : json? text = none := by
    rw [Option.eq_none_iff_forall_ne_some]
    exact fun value hvalue => hjson (isJsonText_of_json? hvalue)
  have hfull : (strip text).isEmpty = false := List.isEmpty_eq_false_iff.mpr hne
  rw [coerce_of_not_isTruthWord hword, int?_of_not_isWholeNumber hwhole]
  simp [Except.map, valueWith, hfloat, hjson, hfull]

/-! ## Integers -/

theorem coerce_ofInt (n : Int) : coerce (ofInt n) = .ok (.int n) := by
  have hwhole := isWholeNumber_ofInt n
  have hread : Decimal.readInt? (ofInt n) = some n := by
    obtain ⟨m, htext, hvalue⟩ := Decimal.exists_text_eq_ofInt n
    rw [Decimal.readInt?_eq_some_iff]
    exact ⟨[], [], m, by simp [htext], by simp, by simp, hvalue⟩
  have hint : int? (ofInt n) = .ok (some n) := by
    rw [int?, strip_of_isWholeNumber hwhole, if_pos (isInteger_iff.mpr hwhole), hread]
  rw [coerce_of_not_isTruthWord, hint]
  . rfl
  . rw [strip_of_isWholeNumber hwhole]
    exact hwhole.not_isTruthWord

theorem coerce_integer_iff {n : Int} {before after : Text}
    (h : ∀ c ∈ before ++ after, isBlank c = true)
    : coerce (before ++ ofInt n ++ after) = .ok (.int n)
        ↔
      ∀ c ∈ before ++ after, ¬ IsSeparator c := by
  have hwhole := isWholeNumber_ofInt n
  have hstrip : strip (before ++ ofInt n ++ after) = ofInt n := by
    unfold strip
    rw [trimBoth_append (fun c hc => h c (List.mem_append_left _ hc)) fun c hc =>
      h c (List.mem_append_right _ hc)]
    exact strip_of_isWholeNumber hwhole
  constructor
  . intro hcoerce c hc hseparator
    have hbarred : Barred (before ++ ofInt n ++ after) := by
      refine ⟨by rw [hstrip]; exact hwhole, c, ?_, hseparator⟩
      rw [List.mem_append] at hc
      rcases hc with hc | hc
      . exact List.mem_append_left _ (List.mem_append_left _ hc)
      . exact List.mem_append_right _ hc
    rw [coerce_of_barred hbarred] at hcoerce
    cases hcoerce
  . intro hapart
    have hbarred : ¬ Barred (before ++ ofInt n ++ after) := by
      rintro ⟨-, c, hc, hseparator⟩
      rw [List.mem_append, List.mem_append] at hc
      rcases hc with (hc | hc) | hc
      . exact hapart c (List.mem_append_left _ hc) hseparator
      . exact not_barred_of_isWholeNumber hwhole
          ⟨(strip_of_isWholeNumber hwhole).symm ▸ hwhole, c, hc, hseparator⟩
      . exact hapart c (List.mem_append_right _ hc) hseparator
    have hne : strip (before ++ ofInt n ++ after) ≠ [] := by
      obtain ⟨c, hc, -⟩ := hwhole.exists_digit
      rw [hstrip]
      exact List.ne_nil_of_mem hc
    rw [coerce_strip hbarred hne, hstrip, coerce_ofInt]

structure Reading (text : Text) : Prop where
  error_iff : ∀ e, coerce text = .error e ↔ Barred text ∧ e = misread text
  strip_iff : strip text ≠ [] → (coerce text = coerce (strip text) ↔ ¬ Barred text)
  blank : (∀ c ∈ text, isBlank c = true) → coerce text = .ok (.text text)
  integer_iff : ∀ (n : Int) (before after : Text), text = before ++ ofInt n ++ after →
    (∀ c ∈ before ++ after, isBlank c = true) →
    (coerce text = .ok (.int n) ↔ ∀ c ∈ before ++ after, ¬ IsSeparator c)
  plain : strip text ≠ [] → ¬ IsTruthWord (strip text) → ¬ IsWholeNumber (strip text) →
    ¬ IsDecimalNumber (strip text) → ¬ IsJsonText (strip text) → coerce text = .ok (.text (strip text))

/-- White space around a text changes nothing and every text is read, but for the whole numbers with
an information separator beside them, which are refused. -/
theorem coerce_reads (text : Text) : Reading text where
  error_iff e := by
    by_cases hbarred : Barred text
    . rw [coerce_of_barred hbarred, Except.error.injEq]
      exact ⟨fun h => ⟨hbarred, h.symm⟩, fun h => h.2.symm⟩
    . obtain ⟨value, hvalue⟩ := exists_coerce_eq hbarred
      rw [hvalue]
      constructor
      . exact fun h => nomatch h
      . exact fun h => absurd h.1 hbarred
  strip_iff hne := by
    constructor
    . intro hcoerce hbarred
      have hstripped : ¬ Barred (strip text) := not_barred_of_isWholeNumber hbarred.1
      obtain ⟨value, hvalue⟩ := exists_coerce_eq hstripped
      rw [coerce_of_barred hbarred, hvalue] at hcoerce
      cases hcoerce
    . exact fun hbarred => coerce_strip hbarred hne
  blank := coerce_of_isBlank
  integer_iff n before after htext h := by
    subst htext
    exact coerce_integer_iff h
  plain := coerce_plain

end Reading

attribute [local instance] Surrogates.lastBlock

theorem coerce_separator_one : coerce ['\x1c', '1'] = .error (misread ['\x1c', '1']) ∧
    strip ['\x1c', '1'] = ['1'] ∧ coerce ['1'] = .ok (.int 1) := by
  exact ⟨rfl, rfl, rfl⟩

end Configuration
end Transclusion
