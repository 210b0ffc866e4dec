import Transclusion.Configuration.Layers
import Transclusion.Proofs.Configuration.Assignment
import Transclusion.Proofs.Value.Keys

/-!
This module contains what a layer does to the mapping it is put over: `valueUnder?_mergeEntries` says
what is under each key afterwards, `map_fst_mergeEntries` in which order the keys stand, and
`mergedAt_mergeValues` what is at the end of every path. Putting the same layer over it once more
changes nothing (`mergeValues_again`).
-/

namespace Transclusion
namespace Value

mutual

def IsNested : Value → Prop
  | .map entries => Keyed (entries.map Prod.fst) ∧ AreNested entries
  | .held .map _ => False
  | _ => True

def AreNested : List (Value × Value) → Prop
  | [] => True
  | (_, value) :: rest => value.IsNested ∧ AreNested rest

end

theorem isNested_map_iff {entries : List (Value × Value)}
    : (Value.map entries).IsNested ↔ Keyed (entries.map Prod.fst) ∧ AreNested entries := by
  rw [IsNested]

theorem areNested_iff {entries : List (Value × Value)}
    : AreNested entries ↔ ∀ entry ∈ entries, entry.2.IsNested := by
  induction entries with
  | nil => simp [AreNested]
  | cons entry entries ih => rw [AreNested, ih, List.forall_mem_cons]

theorem AreNested.of_valueUnder? {key value : Value} {entries : List (Value × Value)}
    (h : AreNested entries) (hvalue : valueUnder? key entries = some value) : value.IsNested := by
  induction entries with
  | nil => cases hvalue
  | cons entry entries ih =>
    rw [AreNested] at h
    rw [valueUnder?] at hvalue
    split at hvalue
    . cases hvalue
      exact h.1
    . exact ih h.2 hvalue

theorem AreNested.putEntry {key value : Value} {entries : List (Value × Value)}
    (h : AreNested entries) (hvalue : value.IsNested) : AreNested (putEntry key value entries) := by
  induction entries with
  | nil => exact ⟨hvalue, trivial⟩
  | cons entry entries ih =>
    rw [AreNested] at h
    rw [Value.putEntry]
    split
    . exact ⟨hvalue, h.2⟩
    . exact ⟨h.1, ih h.2⟩

def under? (v key : Value) : Option Value :=
  match v with
  | .map entries => valueUnder? key entries
  | _ => none

def reach? (v : Value) (path : List Value) : Option Value :=
  path.foldlM (fun v key => v.under? key) v

def keysAt (v : Value) (path : List Value) : List Value :=
  match v.reach? path with
  | some (.map entries) => entries.map Prod.fst
  | _ => []

theorem reach?_nil (v : Value) : v.reach? [] = some v := by rfl

theorem reach?_cons (v key : Value) (path : List Value)
    : v.reach? (key :: path) = (v.under? key).bind (·.reach? path) := by rfl

theorem exists_eq_map {v : Value} (h : v.isMap = true) : ∃ entries, v = .map entries := by
  cases v with
  | map entries => exact ⟨entries, rfl⟩
  | _ => cases h

theorem reach?_cons_of_not_map {v : Value} (h : v.isMap = false) (key : Value) (path : List Value)
    : v.reach? (key :: path) = none := by
  rw [reach?_cons]
  cases v with
  | map entries => cases h
  | _ => rfl

theorem reach?_map_cons (entries : List (Value × Value)) (key : Value) (path : List Value)
    : (Value.map entries).reach? (key :: path) = (valueUnder? key entries).bind (·.reach? path) := by
  rfl

theorem IsNested.of_reach? {v value : Value} {path : List Value} (h : v.IsNested)
    (hreach : v.reach? path = some value) : value.IsNested := by
  induction path generalizing v with
  | nil =>
    cases hreach
    exact h
  | cons key path ih =>
    cases v with
    | map entries =>
      rw [reach?_map_cons, Option.bind_eq_some_iff] at hreach
      obtain ⟨inner, hinner, hreach⟩ := hreach
      exact ih ((isNested_map_iff.mp h).2.of_valueUnder? hinner) hreach
    | _ => cases hreach

def Blocks (v : Value) (path : List Value) : Prop :=
  ∃ upper value, upper <+: path ∧ upper ≠ path ∧ v.reach? upper = some value ∧ value.isMap = false

theorem blocks_cons_of_not_map {v : Value} (h : v.isMap = false) (key : Value) (path : List Value)
    : v.Blocks (key :: path) :=
  ⟨[], v, List.nil_prefix, (List.cons_ne_nil key path).symm, reach?_nil v, h⟩

theorem blocks_map_cons_iff {entries : List (Value × Value)} {key : Value} {path : List Value}
    : (Value.map entries).Blocks (key :: path) ↔
        ∃ value, valueUnder? key entries = some value ∧ value.Blocks path := by
  constructor
  . rintro ⟨upper, value, hprefix, hne, hreach, hmap⟩
    cases upper with
    | nil =>
      cases hreach
      cases hmap
    | cons first upper =>
      obtain ⟨rfl, htail⟩ := List.cons_prefix_cons.mp hprefix
      rw [reach?_map_cons, Option.bind_eq_some_iff] at hreach
      obtain ⟨inner, hinner, hreach⟩ := hreach
      refine ⟨inner, hinner, upper, value, htail, ?_, hreach, hmap⟩
      rintro rfl
      exact hne rfl
  . rintro ⟨inner, hinner, upper, value, hprefix, hne, hreach, hmap⟩
    refine ⟨key :: upper, value, List.cons_prefix_cons.mpr ⟨rfl, hprefix⟩, ?_, ?_, hmap⟩
    . intro h
      exact hne (List.cons.inj h).2
    . rw [reach?_map_cons, hinner, Option.bind_some, hreach]

theorem isSome_valueUnder? (key : Value) (entries : List (Value × Value))
    : (valueUnder? key entries).isSome = (entries.map Prod.fst).any (·.sameKey key) := by
  induction entries with
  | nil => rfl
  | cons entry entries ih =>
    rw [valueUnder?, List.map_cons, List.any_cons, ← ih]
    cases entry.1.sameKey key <;> rfl

def keysOver (below above : List Value) : List Value :=
  below ++ above.filter fun key => !below.any (·.sameKey key)

end Value

namespace Configuration

open Value

/-! ## One level -/

variable {base layer : List (Value × Value)}

def laid (base : List (Value × Value)) (key value : Value) : Value :=
  match valueUnder? key base with
  | some old => mergeValues old value
  | none => value

theorem laid_of_some {key old : Value} (h : valueUnder? key base = some old) (value : Value)
    : laid base key value = mergeValues old value := by
  rw [laid, h]

theorem laid_of_none {key : Value} (h : valueUnder? key base = none) (value : Value)
    : laid base key value = value := by
  rw [laid, h]

theorem mergeEntries_cons (base : List (Value × Value)) (entry : Value × Value)
    (layer : List (Value × Value))
    : mergeEntries base (entry :: layer)
        =
      mergeEntries (putEntry entry.1 (laid base entry.1 entry.2) base) layer := by
  rw [mergeEntries]
  rfl

theorem mergeValues_map (base layer : List (Value × Value))
    : mergeValues (.map base) (.map layer) = .map (mergeEntries base layer) := by
  rw [mergeValues]

theorem mergeValues_of_not_map {old value : Value} (h : old.isMap = false ∨ value.isMap = false)
    : mergeValues old value = value := by
  cases old with
  | map base =>
    cases value with
    | map layer => rcases h with h | h <;> cases h
    | _ => rw [mergeValues]; simp
  | _ => rw [mergeValues]; simp

theorem map_fst_mergeEntries (base : List (Value × Value)) (h : Keyed (layer.map Prod.fst))
    : (mergeEntries base layer).map Prod.fst
        =
      keysOver (base.map Prod.fst) (layer.map Prod.fst) := by
  induction layer generalizing base with
  | nil => simp [mergeEntries, keysOver]
  | cons entry layer ih =>
    rw [mergeEntries_cons, ih _ h.tail, map_fst_putEntry, isSome_valueUnder?, List.map_cons]
    unfold keysOver
    rw [List.filter_cons]
    cases hnew : (base.map Prod.fst).any (·.sameKey entry.1)
    . -- No later key of the layer is the one that has just come in.
      have hlater : ∀ key ∈ layer.map Prod.fst, entry.1.sameKey key = false :=
        (List.pairwise_cons.mp h.once).1
      rw [if_neg (by decide), Bool.not_false, if_pos rfl, List.append_assoc, List.singleton_append]
      congr 2
      apply List.filter_congr
      intro key hkey
      rw [List.any_append, List.any_cons, hlater key hkey, List.any_nil, Bool.or_false, Bool.or_false]
    . rw [if_pos rfl, Bool.not_true, if_neg (by decide)]

theorem valueUnder?_mergeEntries {key : Value} (hbase : Keyed (base.map Prod.fst))
    (hlayer : Keyed (layer.map Prod.fst)) (hkey : key.IsProperKey)
    : valueUnder? key (mergeEntries base layer)
        =
      ((valueUnder? key layer).map (laid base key)).or (valueUnder? key base) := by
  induction layer generalizing base with
  | nil => rw [mergeEntries]; rfl
  | cons entry layer ih =>
    have hentry : entry.1.IsProperKey := hlayer.proper _ List.mem_cons_self
    have hput := valueUnder?_putEntry_of_proper (laid base entry.1 entry.2) hbase.proper hentry hkey
    rw [mergeEntries_cons, ih (hbase.putEntry hentry _) hlayer.tail, hput, valueUnder?]
    by_cases hsame : entry.1.sameKey key
    . -- The key is not in the rest of the layer.
      have hrest : valueUnder? key layer = none := by
        rw [valueUnder?_eq_none_iff]
        intro later hlater
        have hfst := List.mem_map_of_mem (f := Prod.fst) hlater
        have hproper := hlayer.tail.proper _ hfst
        rw [sameKey_comm hproper hkey, ← sameKey_congr hentry hkey hproper hsame]
        exact (List.pairwise_cons.mp hlayer.once).1 _ hfst
      have hlaid : laid base entry.1 entry.2 = laid base key entry.2 := by
        rw [laid, laid, valueUnder?_congr hbase.proper hentry hkey hsame]
      rw [hrest, if_pos hsame, if_pos hsame, hlaid]
      rfl
    . rw [if_neg hsame, if_neg hsame]
      have hlaid : laid (putEntry entry.1 (laid base entry.1 entry.2) base) key = laid base key := by
        funext value
        rw [laid, hput, if_neg hsame, laid]
      rw [hlaid]

theorem keyed_mergeEntries (hbase : Keyed (base.map Prod.fst))
    (hlayer : ∀ key ∈ layer.map Prod.fst, key.IsProperKey)
    : Keyed ((mergeEntries base layer).map Prod.fst) := by
  induction layer generalizing base with
  | nil =>
    rw [mergeEntries]
    exact hbase
  | cons entry layer ih =>
    rw [List.map_cons, List.forall_mem_cons] at hlayer
    rw [mergeEntries_cons]
    exact ih (hbase.putEntry hlayer.1 _) hlayer.2

mutual

theorem isNested_mergeValues {old value : Value} (hold : old.IsNested) (hvalue : value.IsNested)
    : (mergeValues old value).IsNested := by
  cases value with
  | map layer =>
    cases old with
    | map base =>
      rw [isNested_map_iff] at hold hvalue
      rw [mergeValues_map, isNested_map_iff]
      exact ⟨keyed_mergeEntries hold.1 hvalue.1.proper, areNested_mergeEntries hold.2 hvalue.2⟩
    | _ =>
      rw [mergeValues_of_not_map (.inl rfl)]
      exact hvalue
  | _ =>
    rw [mergeValues_of_not_map (.inr rfl)]
    exact hvalue

theorem areNested_mergeEntries {base layer : List (Value × Value)} (hbase : AreNested base)
    (hlayer : AreNested layer) : AreNested (mergeEntries base layer) := by
  cases layer with
  | nil => exact hbase
  | cons entry layer =>
    rw [AreNested] at hlayer
    rw [mergeEntries_cons]
    apply areNested_mergeEntries _ hlayer.2
    apply hbase.putEntry
    cases hold : valueUnder? entry.1 base with
    | none =>
      rw [laid_of_none hold]
      exact hlayer.1
    | some old =>
      rw [laid_of_some hold]
      exact isNested_mergeValues (hbase.of_valueUnder? hold) hlayer.1

end

/-! ## Paths -/

structure MergedAt (base layer merged : Value) (path : List Value) : Prop where
  replaced : ∀ value, layer.reach? path = some value → value.isMap = false →
    merged.reach? path = some value
  combined : ∀ below above, base.reach? path = some (.map below) →
    layer.reach? path = some (.map above) →
    ∃ value, merge (.map below) (.map above) = .ok value ∧ merged.reach? path = some value
  added : ∀ above, layer.reach? path = some (.map above) →
    (∀ below, base.reach? path ≠ some (.map below)) → merged.reach? path = some (.map above)
  kept : layer.reach? path = none → ¬ layer.Blocks path → merged.reach? path = base.reach? path
  hidden : layer.reach? path = none → layer.Blocks path → merged.reach? path = none

section

variable {base layer merged : Value} {path : List Value}

theorem MergedAt.of_alone (hbase : base.reach? path = none)
    (h : merged.reach? path = layer.reach? path) : MergedAt base layer merged path where
  replaced _ hlayer _ := h.trans hlayer
  combined _ _ hbelow := by
    rw [hbase] at hbelow
    cases hbelow
  added _ hlayer _ := h.trans hlayer
  kept hlayer _ := by rw [h, hlayer, hbase]
  hidden hlayer _ := h.trans hlayer

theorem MergedAt.of_absent (hlayer : layer.reach? path = none)
    (hkept : ¬ layer.Blocks path → merged.reach? path = base.reach? path)
    (hhidden : layer.Blocks path → merged.reach? path = none) : MergedAt base layer merged path where
  replaced value hvalue := by
    rw [hlayer] at hvalue
    cases hvalue
  combined below above hbelow habove := by
    rw [hlayer] at habove
    cases habove
  added above habove := by
    rw [hlayer] at habove
    cases habove
  kept _ := hkept
  hidden _ := hhidden

theorem mergedAt_nil (base layer : Value) : MergedAt base layer (mergeValues base layer) [] where
  replaced value hvalue hmap := by
    cases hvalue
    rw [mergeValues_of_not_map (.inr hmap), reach?_nil]
  combined below above hbelow habove := by
    cases hbelow
    cases habove
    exact ⟨.map (mergeEntries below above), rfl, congrArg some (mergeValues_map below above)⟩
  added above habove hbase := by
    cases habove
    rw [mergeValues_of_not_map, reach?_nil]
    left
    cases base with
    | map below => exact absurd rfl (hbase below)
    | _ => rfl
  kept h := by cases h
  hidden h := by cases h

end

theorem MergedAt.cons {merged : List (Value × Value)} {key old value new : Value} {path : List Value}
    (hbase : valueUnder? key base = some old) (hlayer : valueUnder? key layer = some value)
    (hmerged : valueUnder? key merged = some new) (h : MergedAt old value new path)
    : MergedAt (.map base) (.map layer) (.map merged) (key :: path) := by
  have hold : (Value.map base).reach? (key :: path) = old.reach? path := by
    rw [reach?_map_cons, hbase, Option.bind_some]
  have hvalue : (Value.map layer).reach? (key :: path) = value.reach? path := by
    rw [reach?_map_cons, hlayer, Option.bind_some]
  have hnew : (Value.map merged).reach? (key :: path) = new.reach? path := by
    rw [reach?_map_cons, hmerged, Option.bind_some]
  have hblocks : (Value.map layer).Blocks (key :: path) ↔ value.Blocks path := by
    simp [blocks_map_cons_iff, hlayer]
  constructor
  all_goals rw [hvalue]
  . rw [hnew]
    exact h.replaced
  . rw [hold, hnew]
    exact h.combined
  . rw [hold, hnew]
    exact h.added
  . rw [hblocks, hold, hnew]
    exact h.kept
  . rw [hblocks, hnew]
    exact h.hidden

theorem mergedAt_mergeEntries {key : Value} {path : List Value} (hbase : Keyed (base.map Prod.fst))
    (hlayer : Keyed (layer.map Prod.fst)) (hkey : key.IsProperKey)
    (h : ∀ old value, valueUnder? key base = some old → valueUnder? key layer = some value →
      MergedAt old value (mergeValues old value) path)
    : MergedAt (.map base) (.map layer) (.map (mergeEntries base layer)) (key :: path) := by
  have hunder := valueUnder?_mergeEntries hbase hlayer hkey
  cases hvalue : valueUnder? key layer with
  | none =>
    rw [hvalue, Option.map_none, Option.none_or] at hunder
    apply MergedAt.of_absent
    . rw [reach?_map_cons, hvalue, Option.bind_none]
    . intro _
      rw [reach?_map_cons, reach?_map_cons, hunder]
    . intro hblocks
      obtain ⟨value, hsome, -⟩ := blocks_map_cons_iff.mp hblocks
      rw [hvalue] at hsome
      cases hsome
  | some value =>
    rw [hvalue, Option.map_some, Option.some_or] at hunder
    cases hold : valueUnder? key base with
    | none =>
      rw [laid_of_none hold] at hunder
      apply MergedAt.of_alone
      . rw [reach?_map_cons, hold, Option.bind_none]
      . rw [reach?_map_cons, reach?_map_cons, hunder, hvalue]
    | some old =>
      rw [laid_of_some hold] at hunder
      exact MergedAt.cons hold hvalue hunder (h old value hold hvalue)

theorem mergedAt_mergeValues {base layer : Value} {path : List Value} (hbase : base.IsNested)
    (hlayer : layer.IsNested) (hpath : ∀ key ∈ path, key.IsProperKey)
    : MergedAt base layer (mergeValues base layer) path := by
  induction path generalizing base layer with
  | nil => exact mergedAt_nil base layer
  | cons key path ih =>
    rw [List.forall_mem_cons] at hpath
    cases hmap : layer.isMap
    case false =>
      have hnone := reach?_cons_of_not_map hmap key path
      rw [mergeValues_of_not_map (.inr hmap)]
      apply MergedAt.of_absent hnone
      . intro hblocks
        exact absurd (blocks_cons_of_not_map hmap key path) hblocks
      . exact fun _ => hnone
    case true =>
      obtain ⟨above, rfl⟩ := exists_eq_map hmap
      cases hbelow : base.isMap
      case false =>
        rw [mergeValues_of_not_map (.inl hbelow)]
        exact .of_alone (reach?_cons_of_not_map hbelow key path) rfl
      case true =>
        obtain ⟨below, rfl⟩ := exists_eq_map hbelow
        rw [isNested_map_iff] at hbase hlayer
        rw [mergeValues_map]
        apply mergedAt_mergeEntries hbase.1 hlayer.1 hpath.1
        intro old value hold hvalue
        exact ih (hbase.2.of_valueUnder? hold) (hlayer.2.of_valueUnder? hvalue) hpath.2

theorem MergedAt.keys_eq {base layer merged : Value} {entries : List (Value × Value)}
    {path : List Value}
    (h : MergedAt base layer merged path) (hlayer : layer.IsNested)
    (hentries : merged.reach? path = some (.map entries))
    : entries.map Prod.fst = keysOver (base.keysAt path) (layer.keysAt path) := by
  cases hvalue : layer.reach? path with
  | none =>
    by_cases hblocks : layer.Blocks path
    . rw [h.hidden hvalue hblocks] at hentries
      cases hentries
    . rw [h.kept hvalue hblocks] at hentries
      simp [keysAt, hvalue, hentries, keysOver]
  | some value =>
    cases hmap : value.isMap
    case false =>
      rw [h.replaced value hvalue hmap] at hentries
      cases hentries
      cases hmap
    case true =>
      obtain ⟨above, rfl⟩ := exists_eq_map hmap
      by_cases hbase : ∃ below, base.reach? path = some (.map below)
      . obtain ⟨below, hbelow⟩ := hbase
        obtain ⟨_, ⟨⟩, hmerged⟩ := h.combined below above hbelow hvalue
        rw [hentries] at hmerged
        cases hmerged
        rw [map_fst_mergeEntries _ (isNested_map_iff.mp (hlayer.of_reach? hvalue)).1, keysAt, hbelow,
          keysAt, hvalue]
      . rw [not_exists] at hbase
        rw [h.added above hvalue hbase] at hentries
        cases hentries
        have hnone : base.keysAt path = [] := by
          rw [keysAt]
          split
          next below hbelow => exact absurd hbelow (hbase below)
          next => rfl
        rw [hnone, keysAt, hvalue]
        simp [keysOver]

/-! ## Once more -/

-- A layer changes nothing where it leaves every value as it is.
theorem mergeEntries_of_absorbed
    (h : ∀ entry ∈ layer, ∃ old, valueUnder? entry.1 base = some old ∧ mergeValues old entry.2 = old)
    : mergeEntries base layer = base := by
  induction layer with
  | nil => rw [mergeEntries]
  | cons entry layer ih =>
    rw [List.forall_mem_cons] at h
    obtain ⟨old, hold, hmerge⟩ := h.1
    rw [mergeEntries_cons, laid_of_some hold, hmerge, putEntry_of_valueUnder? hold, ih h.2]

mutual

theorem mergeValues_self {v : Value} (h : v.IsNested) : mergeValues v v = v := by
  cases v with
  | map entries =>
    rw [isNested_map_iff] at h
    rw [mergeValues_map, mergeEntries_of_absorbed]
    intro entry hentry
    exact ⟨entry.2, h.1.valueUnder?_eq hentry, mergeValues_self_of_mem h.2 entry hentry⟩
  | _ => exact mergeValues_of_not_map (.inl rfl)

theorem mergeValues_self_of_mem {entries : List (Value × Value)} (h : AreNested entries)
    : ∀ entry ∈ entries, mergeValues entry.2 entry.2 = entry.2 := by
  cases entries with
  | nil => simp
  | cons entry entries =>
    rw [AreNested] at h
    rw [List.forall_mem_cons]
    exact ⟨mergeValues_self h.1, mergeValues_self_of_mem h.2⟩

end

mutual

theorem mergeValues_again {old value : Value} (hold : old.IsNested) (hvalue : value.IsNested)
    : mergeValues (mergeValues old value) value = mergeValues old value := by
  cases value with
  | map layer =>
    cases hmap : old.isMap
    case false =>
      have hmerge : mergeValues old (.map layer) = .map layer := mergeValues_of_not_map (.inl hmap)
      rw [hmerge]
      exact mergeValues_self hvalue
    case true =>
      obtain ⟨base, rfl⟩ := exists_eq_map hmap
      rw [isNested_map_iff] at hold hvalue
      rw [mergeValues_map, mergeValues_map, mergeEntries_of_absorbed]
      intro entry hentry
      have hkey := hvalue.1.proper _ (List.mem_map_of_mem hentry)
      refine ⟨laid base entry.1 entry.2, ?_, ?_⟩
      . rw [valueUnder?_mergeEntries hold.1 hvalue.1 hkey, hvalue.1.valueUnder?_eq hentry,
          Option.map_some, Option.some_or]
      . cases hunder : valueUnder? entry.1 base with
        | none =>
          rw [laid_of_none hunder]
          exact mergeValues_self (areNested_iff.mp hvalue.2 entry hentry)
        | some old =>
          rw [laid_of_some hunder]
          exact mergeValues_again_of_mem hvalue.2 entry hentry (hold.2.of_valueUnder? hunder)
  | _ => rw [mergeValues_of_not_map (.inr rfl), mergeValues_of_not_map (.inr rfl)]

theorem mergeValues_again_of_mem {layer : List (Value × Value)} (h : AreNested layer)
    : ∀ entry ∈ layer, ∀ {old : Value}, old.IsNested →
        mergeValues (mergeValues old entry.2) entry.2 = mergeValues old entry.2 := by
  cases layer with
  | nil => simp
  | cons entry layer =>
    rw [AreNested] at h
    rw [List.forall_mem_cons]
    exact ⟨fun hold => mergeValues_again hold h.1, mergeValues_again_of_mem h.2⟩

end

/-- Merging is exact: it is known what a merged mapping has at the end of every path and in which order
the keys stand on every level. Merging the same once more changes nothing. -/
theorem merge_exact (hbase : (Value.map base).IsNested) (hlayer : (Value.map layer).IsNested)
    : ∃ merged, merge (.map base) (.map layer) = .ok merged ∧ merged.IsNested ∧
        (∀ path, path ≠ [] → (∀ key ∈ path, key.IsProperKey) →
          MergedAt (.map base) (.map layer) merged path) ∧
        (∀ path entries, (∀ key ∈ path, key.IsProperKey) →
          merged.reach? path = some (.map entries) →
          entries.map Prod.fst
            =
          keysOver ((Value.map base).keysAt path) ((Value.map layer).keysAt path)) ∧
        merge merged (.map layer) = .ok merged ∧
        merge (.map base) (.map base) = .ok (.map base) := by
  have hmerged := mergeValues_map base layer
  refine ⟨.map (mergeEntries base layer), rfl, ?_, ?_, ?_, ?_, ?_⟩
  . rw [← hmerged]
    exact isNested_mergeValues hbase hlayer
  . intro path _ hpath
    rw [← hmerged]
    exact mergedAt_mergeValues hbase hlayer hpath
  . intro path entries hpath hentries
    rw [← hmerged] at hentries
    exact (mergedAt_mergeValues hbase hlayer hpath).keys_eq hlayer hentries
  . have hagain := mergeValues_again hbase hlayer
    rw [hmerged, mergeValues_map] at hagain
    exact congrArg Except.ok hagain
  . have hself := mergeValues_self hbase
    rw [mergeValues_map] at hself
    exact congrArg Except.ok hself

def twoSections : List (Value × Value) :=
  [(.int 1, .map [(.text "depth", .int 2), (.text "folder", .null)]), (.text "level", .map [])]

def oneSection : List (Value × Value) :=
  [(.bool true, .map [(.text "depth", .map [(.null, .int 5)])]), (.text "level", .text "debug")]

theorem merge_exact_twoSections
    : ∃ merged, merge (.map twoSections) (.map oneSection) = .ok merged ∧
        merged.reach? [.bool true, .text "depth"] = some (.map [(.null, .int 5)]) ∧
        merged.reach? [.int 1, .text "folder"] = some .null ∧
        merged.reach? [.text "level"] = some (.text "debug") := by
  have hbase : (Value.map twoSections).IsNested := by
    simp only [twoSections, IsNested, AreNested]
    decide
  have hlayer : (Value.map oneSection).IsNested := by
    simp only [oneSection, IsNested, AreNested]
    decide
  obtain ⟨merged, hmerge, -, hpath, -⟩ := merge_exact hbase hlayer
  refine ⟨merged, hmerge, ?_, ?_, ?_⟩
  . have hadded := (hpath [.bool true, .text "depth"] (by decide) (by decide)).added
    apply hadded _ rfl
    intro below
    exact nofun
  . have hkept := (hpath [.int 1, .text "folder"] (by decide) (by decide)).kept rfl
    apply hkept
    rw [oneSection, blocks_map_cons_iff]
    rintro ⟨_, ⟨⟩, hblocks⟩
    obtain ⟨_, ⟨⟩, -⟩ := blocks_map_cons_iff.mp hblocks
  . exact (hpath [.text "level"] (by decide) (by decide)).replaced _ rfl rfl

end Configuration
end Transclusion
