import Transclusion.Proofs.Decimal.Binary64
import Transclusion.Value.Basic

/-!
This module contains what a key stands for: two keys are the same key exactly if they stand for the
same (`sameKey_iff`), so that a value is found under any key that stands for the same as the one it was
put under (`valueUnder?_putEntry_of_proper`).
-/

namespace Transclusion

inductive KeyClass
  | null
  | number (x : ℚ)
  | other (x : Binary64)
  | text (t : Text)
  | date (d : Date)
  | moment (zoned : Bool) (microseconds : Int)
  | bytes (b : List UInt8)

def Binary64.keyClass : Binary64 → KeyClass
  | .finite negative mantissa exponent => .number (number negative mantissa exponent)
  | x => .other x

theorem Binary64.keyClass_eq_iff {x y : Binary64} (hx : x.Canonical) (hy : y.Canonical)
    : (x.eqv y || x == y) = true ↔ x.keyClass = y.keyClass := by
  cases x <;> cases y
  case finite.finite =>
    rw [Bool.or_eq_true, eqv_iff hx hy, beq_iff_eq, or_iff_left_of_imp, keyClass, keyClass,
      KeyClass.number.injEq]
    rintro ⟨⟩
    rfl
  all_goals simp [eqv, keyClass]

theorem Binary64.eqInt_iff_keyClass {x : Binary64} {n : Int}
    : x.eqInt n = true ↔ x.keyClass = .number n := by
  cases x
  case finite => rw [eqInt_iff, keyClass, KeyClass.number.injEq]
  all_goals simp [eqInt, fraction?, keyClass]

namespace Value

def keyClass? : Value → Option KeyClass
  | .null => some .null
  | .bool b => some (.number ((if b then 1 else 0 : Int) : ℚ))
  | .int n => some (.number n)
  | .float x => some x.keyClass
  | .text t => some (.text t)
  | .date d => some (.date d)
  | .moment m => some (.moment m.offset.isSome m.microseconds)
  | .bytes b => some (.bytes b)
  | _ => none

def IsProperKey : Value → Prop
  | .float x => x.Canonical
  | v => v.isKey = true

instance : (v : Value) → Decidable v.IsProperKey
  | .float x => inferInstanceAs (Decidable x.Canonical)
  | .null | .bool _ | .int _ | .text _ | .date _ | .moment _ | .bytes _ => .isTrue rfl
  | .pair _ _ | .list _ | .map _ | .members _ | .held _ _ => .isFalse Bool.false_ne_true

theorem sameKey_float_iff {x : Binary64} {v : Value} (hx : x.Canonical) (hv : v.IsProperKey)
    : (Value.float x).sameKey v = true ↔ some x.keyClass = v.keyClass? := by
  cases v
  case float y => rw [sameKey, keyClass?, Option.some.injEq, Binary64.keyClass_eq_iff hx hv]
  case bool b => exact Binary64.eqInt_iff_keyClass.trans Option.some_inj.symm
  case int n => exact Binary64.eqInt_iff_keyClass.trans Option.some_inj.symm
  all_goals cases x <;> simp [sameKey, integer?, keyClass?, Binary64.keyClass]

theorem sameKey_float_comm (x : Binary64) {v : Value} (h : ∀ y, v ≠ .float y)
    : v.sameKey (.float x) = (Value.float x).sameKey v := by
  cases v
  case float y => exact absurd rfl (h y)
  all_goals rfl

theorem sameKey_iff {a b : Value} (ha : a.IsProperKey) (hb : b.IsProperKey)
    : a.sameKey b = true ↔ a.keyClass? = b.keyClass? := by
  cases a
  case float x => exact sameKey_float_iff ha hb
  case pair | list | map | members | held => cases ha
  all_goals
    cases b
    case float y =>
      rw [sameKey_float_comm y (by simp), sameKey_float_iff hb ha]
      exact eq_comm
    case pair | list | map | members | held => cases hb
    all_goals simp [sameKey, keyClass?, integer?, Moment.coincides, -Int.cast_ite]

theorem sameKey_refl {a : Value} (ha : a.IsProperKey) : a.sameKey a = true :=
  (sameKey_iff ha ha).mpr rfl

theorem sameKey_comm {a b : Value} (ha : a.IsProperKey) (hb : b.IsProperKey)
    : a.sameKey b = b.sameKey a := by
  rw [Bool.eq_iff_iff, sameKey_iff ha hb, sameKey_iff hb ha]
  exact eq_comm

theorem sameKey_congr {a b c : Value} (ha : a.IsProperKey) (hb : b.IsProperKey) (hc : c.IsProperKey)
    (h : a.sameKey b = true) : a.sameKey c = b.sameKey c := by
  rw [sameKey_iff ha hb] at h
  rw [Bool.eq_iff_iff, sameKey_iff ha hc, sameKey_iff hb hc, h]

variable {entries : List (Value × Value)}

theorem valueUnder?_congr {a b : Value} (hentries : ∀ k ∈ entries.map Prod.fst, k.IsProperKey)
    (ha : a.IsProperKey) (hb : b.IsProperKey) (h : a.sameKey b = true)
    : valueUnder? a entries = valueUnder? b entries := by
  induction entries with
  | nil => rfl
  | cons entry entries ih =>
    rw [List.map_cons, List.forall_mem_cons] at hentries
    have hentry : entry.1.sameKey a = entry.1.sameKey b := by
      rw [sameKey_comm hentries.1 ha, sameKey_comm hentries.1 hb, sameKey_congr ha hb hentries.1 h]
    rw [valueUnder?, valueUnder?, hentry, ih hentries.2]

theorem valueUnder?_putEntry_of_proper {key other : Value} (value : Value)
    (hentries : ∀ k ∈ entries.map Prod.fst, k.IsProperKey) (hkey : key.IsProperKey)
    (hother : other.IsProperKey)
    : valueUnder? other (putEntry key value entries)
        =
      if key.sameKey other then some value else valueUnder? other entries := by
  induction entries with
  | nil => rfl
  | cons entry entries ih =>
    rw [List.map_cons, List.forall_mem_cons] at hentries
    rw [putEntry]
    by_cases hsame : entry.1.sameKey key
    . rw [if_pos hsame, valueUnder?, valueUnder?, sameKey_congr hentries.1 hkey hother hsame]
      split <;> rfl
    . rw [if_neg hsame, valueUnder?, valueUnder?, ih hentries.2]
      by_cases hentry : entry.1.sameKey other
      . have hdiffer : ¬ key.sameKey other := by
          rw [sameKey_comm hkey hother, ← sameKey_congr hentries.1 hother hkey hentry]
          exact hsame
        rw [if_pos hentry, if_neg hdiffer, if_pos hentry]
      . rw [if_neg hentry, if_neg hentry]

theorem map_fst_putEntry (key value : Value) (entries : List (Value × Value))
    : (putEntry key value entries).map Prod.fst
        =
      if (valueUnder? key entries).isSome then entries.map Prod.fst
      else entries.map Prod.fst ++ [key] := by
  induction entries with
  | nil => rfl
  | cons entry entries ih =>
    rw [putEntry, valueUnder?]
    split
    next => rfl
    next =>
      rw [List.map_cons, ih, List.map_cons]
      split <;> rfl

theorem valueUnder?_eq_none_iff {key : Value}
    : valueUnder? key entries = none ↔ ∀ entry ∈ entries, entry.1.sameKey key = false := by
  induction entries with
  | nil => simp [valueUnder?]
  | cons entry entries ih =>
    rw [valueUnder?, List.forall_mem_cons]
    split
    next h => simp [h]
    next h => simp [h, ih]

structure Keyed (keys : List Value) : Prop where
  proper : ∀ key ∈ keys, key.IsProperKey
  once : keys.Pairwise fun a b => a.sameKey b = false

instance (keys : List Value) : Decidable (Keyed keys) :=
  decidable_of_iff ((∀ key ∈ keys, key.IsProperKey) ∧ keys.Pairwise fun a b => a.sameKey b = false)
    ⟨fun h => ⟨h.1, h.2⟩, fun h => ⟨h.proper, h.once⟩⟩

theorem Keyed.tail {key : Value} {keys : List Value} (h : Keyed (key :: keys)) : Keyed keys where
  proper := (List.forall_mem_cons.mp h.proper).2
  once := (List.pairwise_cons.mp h.once).2

theorem Keyed.putEntry {key : Value} (h : Keyed (entries.map Prod.fst)) (hkey : key.IsProperKey)
    (value : Value) : Keyed ((putEntry key value entries).map Prod.fst) := by
  rw [map_fst_putEntry]
  split
  next => exact h
  next hnew =>
    rw [Option.not_isSome_iff_eq_none, valueUnder?_eq_none_iff] at hnew
    constructor
    . rw [List.forall_mem_append, List.forall_mem_singleton]
      exact ⟨h.proper, hkey⟩
    . rw [List.pairwise_append]
      refine ⟨h.once, List.pairwise_singleton _ _, ?_⟩
      rw [List.forall_mem_map]
      simpa using hnew

theorem keyed_assign {pairs : List (Value × Value)} (h : ∀ pair ∈ pairs, pair.1.IsProperKey)
    : Keyed ((assign pairs).map Prod.fst) := by
  have hstart : Keyed (([] : List (Value × Value)).map Prod.fst) := ⟨by simp, by simp⟩
  rw [assign]
  generalize ([] : List (Value × Value)) = entries at hstart ⊢
  induction pairs generalizing entries with
  | nil => exact hstart
  | cons pair pairs ih =>
    rw [List.forall_mem_cons] at h
    exact ih h.2 _ (hstart.putEntry h.1 pair.2)

theorem Keyed.valueUnder?_eq {entry : Value × Value} (h : Keyed (entries.map Prod.fst))
    (hentry : entry ∈ entries) : valueUnder? entry.1 entries = some entry.2 := by
  induction entries with
  | nil => cases hentry
  | cons first entries ih =>
    rw [valueUnder?]
    rcases List.mem_cons.mp hentry with rfl | hlater
    . rw [if_pos (sameKey_refl (h.proper _ List.mem_cons_self))]
    . have hdiffer : first.1.sameKey entry.1 = false :=
        (List.pairwise_cons.mp h.once).1 _ (List.mem_map_of_mem hlater)
      rw [hdiffer, if_neg (by decide), ih h.tail hlater]

end Value
end Transclusion
