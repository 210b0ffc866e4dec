/-!
This module contains maps that keep the order in which their keys came. Every write goes
through `OrderedMap.alter`, which leaves a key where it is and puts a new one at the end; the two
statements that pin it down are `keys_alter` and `get?_alter`.
-/

namespace Transclusion

structure OrderedMap (κ α : Type) where
  entries : List (κ × α)
  nodup : (entries.map Prod.fst).Nodup

namespace OrderedMap

variable {κ α : Type}

def empty : OrderedMap κ α where
  entries := []
  nodup := by simp

instance : EmptyCollection (OrderedMap κ α) := ⟨empty⟩

def keys (m : OrderedMap κ α) : List κ :=
  m.entries.map Prod.fst

def size (m : OrderedMap κ α) : Nat :=
  m.entries.length

@[ext]
theorem ext {m n : OrderedMap κ α} (h : m.entries = n.entries) : m = n := by
  cases m
  cases n
  simpa using h

@[simp]
theorem entries_empty : (∅ : OrderedMap κ α).entries = [] := rfl

@[simp]
theorem keys_empty : (∅ : OrderedMap κ α).keys = [] := rfl

theorem keys_nodup (m : OrderedMap κ α) : m.keys.Nodup :=
  m.nodup

variable [BEq κ] [LawfulBEq κ]

def alterEntries (key : κ) (f : Option α → α) : List (κ × α) → List (κ × α)
  | [] => [(key, f none)]
  | (k, v) :: rest =>
    if k == key then (k, f (some v)) :: rest else (k, v) :: alterEntries key f rest

theorem map_fst_alterEntries (key : κ) (f : Option α → α) (entries : List (κ × α)) :
    (alterEntries key f entries).map Prod.fst =
      if key ∈ entries.map Prod.fst then entries.map Prod.fst
      else entries.map Prod.fst ++ [key] := by
  induction entries with
  | nil => simp [alterEntries]
  | cons entry rest ih =>
    by_cases h : entry.1 = key
    . simp [alterEntries, h]
    . have h' : ¬ key = entry.1 := fun h' => h h'.symm
      simp only [alterEntries, beq_iff_eq, h, h', if_false, List.map_cons, List.mem_cons, false_or,
        ih]
      split <;> simp

theorem lookup_alterEntries (key other : κ) (f : Option α → α) (entries : List (κ × α)) :
    (alterEntries key f entries).lookup other =
      if other == key then some (f (entries.lookup key)) else entries.lookup other := by
  induction entries with
  | nil =>
    by_cases h : other = key
    . simp [alterEntries, h]
    . simp [alterEntries, List.lookup_cons, beq_false_of_ne h]
  | cons entry rest ih =>
    obtain ⟨k, v⟩ := entry
    by_cases hk : k = key
    . subst hk
      by_cases h : other = k
      . simp [alterEntries, h]
      . simp [alterEntries, List.lookup_cons, beq_false_of_ne h]
    . have hk' : ¬ key = k := fun h => hk h.symm
      by_cases h : other = k
      . subst h
        simp [alterEntries, hk]
      . simp [alterEntries, List.lookup_cons, beq_false_of_ne h, beq_false_of_ne hk', hk, ih]

def get? (m : OrderedMap κ α) (key : κ) : Option α :=
  m.entries.lookup key

def contains (m : OrderedMap κ α) (key : κ) : Bool :=
  (m.get? key).isSome

def alter (m : OrderedMap κ α) (key : κ) (f : Option α → α) : OrderedMap κ α where
  entries := alterEntries key f m.entries
  nodup := by
    rw [map_fst_alterEntries]
    split
    . exact m.nodup
    next h =>
      rw [List.nodup_append]
      refine ⟨m.nodup, by simp, ?_⟩
      intro a ha b hb hab
      simp only [List.mem_singleton] at hb
      exact h (hb ▸ hab ▸ ha)

def insert (m : OrderedMap κ α) (key : κ) (value : α) : OrderedMap κ α :=
  m.alter key fun _ => value

def insertNew (m : OrderedMap κ α) (key : κ) (value : α) : OrderedMap κ α :=
  m.alter key fun old => old.getD value

def ofList (pairs : List (κ × α)) : OrderedMap κ α :=
  pairs.foldl (fun m (key, value) => m.insert key value) empty

omit [LawfulBEq κ] in
@[simp]
theorem get?_empty (key : κ) : (∅ : OrderedMap κ α).get? key = none := rfl

theorem keys_alter (m : OrderedMap κ α) (key : κ) (f : Option α → α) :
    (m.alter key f).keys = if key ∈ m.keys then m.keys else m.keys ++ [key] :=
  map_fst_alterEntries key f m.entries

theorem get?_alter (m : OrderedMap κ α) (key other : κ) (f : Option α → α) :
    (m.alter key f).get? other = if other == key then some (f (m.get? key)) else m.get? other :=
  lookup_alterEntries key other f m.entries

@[simp]
theorem get?_insert_self (m : OrderedMap κ α) (key : κ) (value : α) :
    (m.insert key value).get? key = some value := by
  simp [insert, get?_alter]

end OrderedMap
end Transclusion
