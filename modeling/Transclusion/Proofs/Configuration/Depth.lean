import Transclusion.Configuration.Sections
import Transclusion.Proofs.Decimal.Binary64
import Transclusion.Proofs.Decimal.Integer

/-!
This module contains which values are taken for the limit on the depth of inclusions
(`maxDepth_judged`): all that count as an integer do, when only integers and their texts should.
-/

namespace Transclusion
namespace Configuration

/-! ## Values that count as integers -/

def Spells (text : Text) (n : Int) : Prop :=
  ∃ (before after : Text) (m : Decimal.Numeral), text = before ++ m.text ++ after ∧
    (∀ c ∈ before, Decimal.isNumberBlank c = true) ∧
    (∀ c ∈ after, Decimal.isNumberBlank c = true) ∧ m.value = n

def CountsAs (n : Int) : Value → Prop
  | .bool b => n = if b then 1 else 0
  | .int m => n = m
  | .float (.finite negative mantissa exponent) =>
    n = if negative then ⌈Binary64.number negative mantissa exponent⌉
      else ⌊Binary64.number negative mantissa exponent⌋
  | .text text => Spells text n
  | .bytes bytes =>
    (∀ byte ∈ bytes, byte < 128) ∧ Spells (bytes.map fun byte => Char.ofNat byte.toNat) n
  | _ => False

def IsInfinite (v : Value) : Prop :=
  ∃ negative, v = .float (.infinite negative)

inductive Counted (v : Value) : Except Failure Int → Prop
  | integer (n : Int) (h : CountsAs n v) : Counted v (.ok n)
  | infinite (h : IsInfinite v) : Counted v (.error .outOfRange)
  | misfit (h : ∀ n, ¬ CountsAs n v) (hfinite : ¬ IsInfinite v) :
    Counted v (.error (.settings (.depthNotInteger v)))

theorem spells_iff {text : Text} {n : Int} : Spells text n ↔ Decimal.readInt? text = some n :=
  Decimal.readInt?_eq_some_iff.symm

theorem counted_orMisfit {v : Value} {found : Option Int} (hfinite : ¬ IsInfinite v)
    (h : ∀ n, CountsAs n v ↔ found = some n) : Counted v (integerOf.orMisfit v found) := by
  cases found with
  | some n => exact .integer n ((h n).mpr rfl)
  | none => exact .misfit (fun n hn => nomatch (h n).mp hn) hfinite

theorem counted_integerOf (v : Value) : Counted v (integerOf v) := by
  cases v with
  | bool b => exact .integer _ rfl
  | int n => exact .integer n rfl
  | float x =>
    cases x with
    | nan payload =>
      refine .misfit (fun _ h => h) ?_
      rintro ⟨_, h⟩
      cases h
    | infinite negative => exact .infinite ⟨negative, rfl⟩
    | finite negative mantissa exponent =>
      change Counted _ (integerOf.orMisfit (.float (.finite negative mantissa exponent))
        (Binary64.finite negative mantissa exponent).truncate?)
      refine counted_orMisfit ?_ fun n => ?_
      . rintro ⟨_, h⟩
        cases h
      . rw [Binary64.truncate?_finite, Option.some.injEq]
        exact eq_comm
  | text t => exact counted_orMisfit (fun ⟨_, h⟩ => nomatch h) fun n => spells_iff
  | bytes b =>
    unfold integerOf
    dsimp only
    split
    next hascii =>
      refine counted_orMisfit (fun ⟨_, h⟩ => nomatch h) fun n => ?_
      rw [List.all_eq_true] at hascii
      rw [← spells_iff]
      exact and_iff_right fun byte hbyte => of_decide_eq_true (hascii byte hbyte)
    next hascii =>
      rw [List.all_eq_true] at hascii
      refine .misfit (fun n h => hascii ?_) fun ⟨_, h⟩ => nomatch h
      exact fun byte hbyte => decide_eq_true (h.1 byte hbyte)
  | _ => exact .misfit (fun _ h => h) fun ⟨_, h⟩ => nomatch h

/-! ## The limit -/

variable {config : Document} {sectionName name : Text}

def IsSection (found : Option Document) : Prop :=
  ∀ d, found = some d → d.content = .null ∨ ∃ entries, d.content = .map entries

theorem lookUp_of_map {entries : List (Value × Value)} (h : config.content = .map entries)
    : lookUp name config = .ok (config.field? name) := by
  unfold lookUp
  rw [h]

theorem field?_of_not_isTruthy {d : Document} (h : ¬ d.isTruthy = true) : d.field? name = none := by
  unfold Document.isTruthy at h
  unfold Document.field?
  cases hcontent : d.content with
  | map entries =>
    cases entries with
    | nil => rfl
    | cons entry entries =>
      rw [hcontent] at h
      exact absurd rfl h
  | _ => rfl

theorem setting_eq {entries : List (Value × Value)} (h : config.content = .map entries)
    (hsection : IsSection (config.field? sectionName))
    : setting sectionName name config = .ok (config.at? [sectionName, name]) := by
  have hempty : lookUp name (Value.map [] : Document) = .ok none := by rfl
  have hat : config.at? [sectionName, name]
      = (config.field? sectionName).bind (·.field? name) := by
    unfold Document.at?
    simp
  unfold setting sectionOf
  rw [lookUp_of_map h, hat]
  cases hfound : config.field? sectionName with
  | none => exact hempty
  | some d =>
    change lookUp name (if d.isTruthy then d else Value.map []) = .ok (d.field? name)
    split
    next htruthy =>
      rcases hsection d hfound with hnull | ⟨entries, hmap⟩
      . rw [Document.isTruthy, hnull] at htruthy
        cases htruthy
      . exact lookUp_of_map hmap
    next htruthy =>
      rw [field?_of_not_isTruthy htruthy]
      exact hempty

def depthSetting (config : Document) : Option Value :=
  (config.at? ["expansion".toList, "max_depth".toList]).map Document.unfold

structure HasSection (config : Document) : Prop where
  isMap : ∃ entries, config.content = .map entries
  isSection : IsSection (config.field? "expansion".toList)

inductive Depth : Option Value → Except Failure Int → Prop
  | absent : Depth none (.ok 64)
  | null : Depth (some .null) (.ok 64)
  | limit {v : Value} {d : Int} (h : CountsAs d v) (hnonneg : 0 ≤ d) : Depth (some v) (.ok d)
  | negative {v : Value} {d : Int} (h : CountsAs d v) (hneg : d < 0) :
    Depth (some v) (.error (.settings (.depthNegative d)))
  | infinite {v : Value} (h : IsInfinite v) : Depth (some v) (.error .outOfRange)
  | misfit {v : Value} (hnull : v ≠ .null) (h : ∀ n, ¬ CountsAs n v) (hfinite : ¬ IsInfinite v) :
    Depth (some v) (.error (.settings (.depthNotInteger v)))

theorem depth_maxDepth (h : HasSection config) : Depth (depthSetting config) (maxDepth config) := by
  obtain ⟨⟨entries, hconfig⟩, hsection⟩ := h
  obtain ⟨found, hsetting, hunfold⟩ : ∃ found, setting "expansion" "max_depth" config = .ok found ∧
      found.map Document.unfold = depthSetting config := by
    exact ⟨_, setting_eq hconfig hsection, rfl⟩
  rw [← hunfold]
  unfold maxDepth
  rw [hsetting]
  dsimp only [bind, Except.bind]
  generalize found.map Document.unfold = shown
  split
  next => exact .absent
  next => exact .null
  next v hnull =>
    have hcounted := counted_integerOf v
    revert hcounted
    generalize integerOf v = outcome
    intro hcounted
    cases hcounted with
    | integer d h =>
      change Depth (some v) (if d < 0 then .error (.settings (.depthNegative d)) else .ok d)
      split
      next hneg => exact .negative h hneg
      next hneg => exact .limit h (Int.not_lt.mp hneg)
    | infinite h => exact .infinite h
    | misfit h hfinite => exact .misfit hnull h hfinite

/-! ## What is asked of it -/

def IsDepth (v : Value) : Prop :=
  ∃ d : Int, 0 ≤ d ∧ (v = .int d ∨ v = .text (Text.ofInt d))

inductive Judged : Option Value → Except Failure Int → Prop
  | absent : Judged none (.ok 64)
  | null : Judged (some .null) (.ok 64)
  | integer {d : Int} (hnonneg : 0 ≤ d) : Judged (some (.int d)) (.ok d)
  | text {d : Int} (hnonneg : 0 ≤ d) : Judged (some (.text (Text.ofInt d))) (.ok d)
  | refused {v : Value} (hnull : v ≠ .null) (h : ¬ IsDepth v) (fault : SettingsFault) :
    Judged (some v) (.error (.settings fault))

def Misjudged (found : Option Value) : Prop :=
  ∃ v, found = some v ∧ (IsInfinite v ∨
    ∃ n : Int, 0 ≤ n ∧ CountsAs n v ∧ v ≠ .int n ∧ v ≠ .text (Text.ofInt n))

theorem countsAs_unique {v : Value} {m n : Int} (hm : CountsAs m v) (hn : CountsAs n v) : m = n := by
  cases v with
  | text t => exact Option.some.inj ((spells_iff.mp hm).symm.trans (spells_iff.mp hn))
  | bytes b => exact Option.some.inj ((spells_iff.mp hm.2).symm.trans (spells_iff.mp hn.2))
  | float x =>
    cases x with
    | finite negative mantissa exponent => exact hm.trans hn.symm
    | _ => exact hm.elim
  | bool b => exact hm.trans hn.symm
  | int k => exact hm.trans hn.symm
  | _ => exact hm.elim

theorem countsAs_ofInt (n : Int) : CountsAs n (.text (Text.ofInt n)) := by
  obtain ⟨m, htext, hvalue⟩ := Decimal.exists_text_eq_ofInt n
  exact ⟨[], [], m, by simp [htext], by simp, by simp, hvalue⟩

theorem not_isInfinite_of_countsAs {v : Value} {n : Int} (h : CountsAs n v) : ¬ IsInfinite v := by
  rintro ⟨negative, rfl⟩
  exact h

theorem judged_iff {found : Option Value} {outcome : Except Failure Int} (h : Depth found outcome)
    : Judged found outcome ↔ ¬ Misjudged found := by
  cases h with
  | absent => exact iff_of_true .absent fun ⟨_, h, _⟩ => nomatch h
  | null =>
    refine iff_of_true .null ?_
    rintro ⟨v, h, hv⟩
    cases h
    rcases hv with ⟨_, h⟩ | ⟨_, _, h, _⟩
    . cases h
    . exact h
  | @limit v d hcounts hnonneg =>
    constructor
    . rintro hjudged ⟨_, h, hv⟩
      cases h
      rcases hv with hinfinite | ⟨n, -, hn, hint, htext⟩
      . exact not_isInfinite_of_countsAs hcounts hinfinite
      . obtain rfl := countsAs_unique hcounts hn
        cases hjudged with
        | null => exact hn
        | integer => exact hint rfl
        | text => exact htext rfl
    . intro hmis
      by_cases hint : v = .int d
      . subst hint
        exact .integer hnonneg
      . by_cases htext : v = .text (Text.ofInt d)
        . subst htext
          exact .text hnonneg
        . exact absurd ⟨v, rfl, .inr ⟨d, hnonneg, hcounts, hint, htext⟩⟩ hmis
  | @negative v d hcounts hneg =>
    refine iff_of_true (.refused ?_ ?_ _) ?_
    . rintro rfl
      exact hcounts
    . rintro ⟨n, hnonneg, rfl | rfl⟩
      . have := countsAs_unique hcounts (n := n) rfl
        omega
      . have := countsAs_unique hcounts (countsAs_ofInt n)
        omega
    . rintro ⟨_, h, hv⟩
      cases h
      rcases hv with hinfinite | ⟨n, hnonneg, hn, -⟩
      . exact not_isInfinite_of_countsAs hcounts hinfinite
      . have := countsAs_unique hcounts hn
        omega
  | @infinite v hinfinite => exact iff_of_false (fun h => nomatch h) fun h => h ⟨v, rfl, .inl hinfinite⟩
  | @misfit v hnull hnot hfinite =>
    refine iff_of_true (.refused hnull ?_ _) ?_
    . rintro ⟨n, -, rfl | rfl⟩
      . exact hnot n rfl
      . exact hnot n (countsAs_ofInt n)
    . rintro ⟨_, h, hv⟩
      cases h
      rcases hv with hinfinite | ⟨n, -, hn, -⟩
      . exact hfinite hinfinite
      . exact hnot n hn

/-- The value for the limit becomes the limit if it counts as an integer that is not negative. It is
judged as it should be exactly if it counts as no depth or is one. -/
theorem maxDepth_judged (h : HasSection config)
    : Depth (depthSetting config) (maxDepth config) ∧
      (Judged (depthSetting config) (maxDepth config) ↔ ¬ Misjudged (depthSetting config)) :=
  ⟨depth_maxDepth h, judged_iff (depth_maxDepth h)⟩

def withDepth (v : Value) : Document :=
  Value.ofFields [("expansion".toList, Value.ofFields [("max_depth".toList, v)])]

theorem hasSection_withDepth (v : Value) : HasSection (withDepth v) where
  isMap := ⟨_, rfl⟩
  isSection := by
    intro d hd
    cases hd
    exact .inr ⟨_, rfl⟩

theorem maxDepth_judged_three : HasSection (withDepth (.int 3)) ∧
    Depth (some (.int 3)) (maxDepth (withDepth (.int 3))) ∧
    (Judged (some (.int 3)) (maxDepth (withDepth (.int 3))) ↔ ¬ Misjudged (some (.int 3))) :=
  ⟨hasSection_withDepth _, maxDepth_judged (hasSection_withDepth (.int 3))⟩

def twoAndMore : Binary64 := .ofDecimal false 27 (-1)

theorem maxDepth_twoAndMore : maxDepth (withDepth (.float twoAndMore)) = .ok 2 ∧
    ¬ Judged (some (.float twoAndMore)) (.ok 2) :=
  ⟨rfl, fun h => nomatch h⟩

end Configuration
end Transclusion
