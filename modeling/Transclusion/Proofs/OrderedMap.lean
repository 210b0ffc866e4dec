import Transclusion.OrderedMap

/-!
This module contains what is in maps that keep an order: the entries are what look-up finds
(`mem_entries_iff`), and entries that are put in one after the other, each unless its key is there
already, are looked up as in their list (`get?_foldl_insertNew`) and keep its order
(`exists_entries_foldl_insertNew`).
-/

namespace Transclusion
namespace OrderedMap

variable {κ α : Type} [BEq κ] [LawfulBEq κ] {key : κ} {value : α}

theorem lookup_eq_some_iff {entries : List (κ × α)} (h : (entries.map Prod.fst).Nodup)
    : entries.lookup key = some value ↔ (key, value) ∈ entries := by
  induction entries with
  | nil => simp
  | cons entry entries ih =>
    obtain ⟨k, v⟩ := entry
    rw [List.map_cons, List.nodup_cons] at h
    rw [List.lookup_cons, List.mem_cons, Prod.mk.injEq]
    by_cases hkey : key = k
    . subst hkey
      have hnot : (key, value) ∉ entries := fun hmem => h.1 (List.mem_map.mpr ⟨_, hmem, rfl⟩)
      simp [hnot, eq_comm]
    . rw [beq_false_of_ne hkey]
      simp [hkey, ih h.2]

theorem mem_entries_iff {m : OrderedMap κ α} : (key, value) ∈ m.entries ↔ m.get? key = some value :=
  (lookup_eq_some_iff m.nodup).symm

theorem mem_keys_iff {m : OrderedMap κ α} : key ∈ m.keys ↔ ∃ value, m.get? key = some value := by
  simp only [← mem_entries_iff, keys, List.mem_map, Prod.exists, exists_and_right, exists_eq_right]

theorem entries_insertNew (m : OrderedMap κ α) (key : κ) (value : α)
    : (m.insertNew key value).entries
        =
      if key ∈ m.keys then m.entries else m.entries ++ [(key, value)] := by
  have halter : ∀ entries : List (κ × α),
      alterEntries key (fun old => old.getD value) entries =
        if key ∈ entries.map Prod.fst then entries else entries ++ [(key, value)] := by
    intro entries
    induction entries with
    | nil => simp [alterEntries]
    | cons entry entries ih =>
      obtain ⟨k, v⟩ := entry
      by_cases hkey : k = key
      . simp [alterEntries, hkey]
      . have hkey' : ¬ key = k := fun h => hkey h.symm
        simp only [alterEntries, beq_iff_eq, hkey, if_false, ih, List.map_cons, List.mem_cons, hkey',
          false_or]
        split <;> rfl
  exact halter m.entries

theorem get?_foldl_insertNew (entries : List (κ × α)) (m : OrderedMap κ α) (key : κ)
    : (entries.foldl (fun m (key, value) => m.insertNew key value) m).get? key
        =
      (m.get? key).or (entries.lookup key) := by
  induction entries generalizing m with
  | nil => simp
  | cons entry entries ih =>
    obtain ⟨k, v⟩ := entry
    rw [List.foldl_cons, ih, List.lookup_cons]
    change Option.or ((m.alter k fun old => old.getD v).get? key) _ = _
    rw [get?_alter]
    by_cases hkey : key = k
    . subst hkey
      cases m.get? key <;> simp
    . simp [beq_false_of_ne hkey]

theorem exists_entries_foldl_insertNew (entries : List (κ × α)) (m : OrderedMap κ α)
    : ∃ kept, (entries.foldl (fun m (key, value) => m.insertNew key value) m).entries
        = m.entries ++ kept ∧ kept.Sublist entries := by
  induction entries generalizing m with
  | nil => exact ⟨[], (List.append_nil _).symm, List.Sublist.slnil⟩
  | cons entry entries ih =>
    obtain ⟨k, v⟩ := entry
    obtain ⟨kept, hentries, hkept⟩ := ih (m.insertNew k v)
    rw [List.foldl_cons, hentries, entries_insertNew]
    split
    . exact ⟨kept, rfl, hkept.cons _⟩
    . exact ⟨(k, v) :: kept, by simp, hkept.cons_cons _⟩

end OrderedMap
end Transclusion
