import Transclusion.Configuration.Overrides
import Transclusion.Proofs.Value.Tree

/-!
This module contains assignment to a path: what it does to the tree that a document shows
(`unshared_assign`), and that it leaves every other path alone (`at?_assignAt_of_diverges`).
-/

namespace Transclusion

namespace Value

theorem sameKey_text_iff {k : Value} {t : Text} : k.sameKey (.text t) = true ↔ k = .text t := by
  cases k <;> simp [sameKey, integer?]

theorem valueUnder?_putEntry (key other : Text) (value : Value) (entries : List (Value × Value))
    : valueUnder? (.text other) (putEntry (.text key) value entries)
        =
      if key = other then some value else valueUnder? (.text other) entries := by
  induction entries with
  | nil =>
    rw [putEntry, valueUnder?]
    simp [sameKey_text_iff, valueUnder?]
  | cons entry entries ih =>
    rw [putEntry]
    by_cases hkey : entry.1.sameKey (.text key)
    . rw [if_pos hkey, valueUnder?, valueUnder?]
      rw [sameKey_text_iff] at hkey
      rw [hkey]
      by_cases hother : key = other
      . simp [hother, sameKey_text_iff]
      . simp [hother, sameKey_text_iff]
    . rw [if_neg hkey, valueUnder?, valueUnder?, ih]
      rw [sameKey_text_iff] at hkey
      by_cases hother : key = other
      . rw [if_pos hother, if_pos hother, if_neg]
        rw [sameKey_text_iff, ← hother]
        exact hkey
      . rw [if_neg hother, if_neg hother]

theorem putEntry_of_valueUnder? {key value : Value} {entries : List (Value × Value)}
    (h : valueUnder? key entries = some value) : putEntry key value entries = entries := by
  induction entries with
  | nil => simp [valueUnder?] at h
  | cons entry entries ih =>
    rw [valueUnder?] at h
    rw [putEntry]
    split at h
    next hkey =>
      obtain rfl := Option.some.inj h
      rw [if_pos hkey]
    next hkey => rw [if_neg hkey, ih h]

end Value

namespace Configuration

open Value

/-! ## Trees -/

def entriesUnder (key : Text) (entries : List (Value × Value)) : List (Value × Value) :=
  match valueUnder? (.text key) entries with
  | some (.map inner) => inner
  | _ => []

def assignAt (value : Value) : List Text → List (Value × Value) → List (Value × Value)
  | [], entries => entries
  | [key], entries => putEntry (.text key) value entries
  | key :: rest, entries =>
    putEntry (.text key) (.map (assignAt value rest (entriesUnder key entries))) entries

theorem at?_map_cons (entries : List (Value × Value)) (key : Text) (path : List Text)
    : (Value.map entries).at? (key :: path) = (valueUnder? (.text key) entries).bind (·.at? path) := by
  rfl

theorem at?_assignAt_self (value : Value) {path : List Text} (h : path ≠ [])
    (entries : List (Value × Value))
    : (Value.map (assignAt value path entries)).at? path = some value := by
  induction path generalizing entries with
  | nil => exact absurd rfl h
  | cons key rest ih =>
    cases rest with
    | nil =>
      rw [assignAt, at?_map_cons, valueUnder?_putEntry, if_pos rfl]
      rfl
    | cons next rest =>
      rw [assignAt, at?_map_cons, valueUnder?_putEntry, if_pos rfl]
      . exact ih (by simp) _
      . simp

-- Where there is no mapping under a key, it is as good as an empty one for longer paths.
theorem at?_entriesUnder (key next : Text) (path : List Text) (entries : List (Value × Value))
    : (Value.map (entriesUnder key entries)).at? (next :: path)
        =
      (Value.map entries).at? (key :: next :: path) := by
  rw [at?_map_cons entries, entriesUnder]
  cases valueUnder? (.text key) entries with
  | none => rfl
  | some value => cases value <;> rfl

theorem at?_assignAt_of_diverges (value : Value) {path other : List Text} (h : ¬ path <+: other)
    (h' : ¬ other <+: path) (entries : List (Value × Value))
    : (Value.map (assignAt value path entries)).at? other = (Value.map entries).at? other := by
  induction path generalizing other entries with
  | nil => exact absurd (List.nil_prefix) h
  | cons key rest ih =>
    cases other with
    | nil => exact absurd (List.nil_prefix) h'
    | cons first other =>
      by_cases hfirst : key = first
      . subst hfirst
        rw [List.cons_prefix_cons, not_and] at h h'
        cases rest with
        | nil => exact absurd (List.nil_prefix) (h rfl)
        | cons next rest =>
          cases other with
          | nil => exact absurd (List.nil_prefix) (h' rfl)
          | cons second other =>
            rw [assignAt, at?_map_cons, valueUnder?_putEntry, if_pos rfl, Option.bind_some,
              ih (h rfl) (h' rfl), at?_entriesUnder]
            simp
      . have hput : ∀ v, (Value.map (putEntry (.text key) v entries)).at? (first :: other)
            = (Value.map entries).at? (first :: other) := by
          intro v
          rw [at?_map_cons, valueUnder?_putEntry, if_neg hfirst, at?_map_cons]
        cases rest with
        | nil => exact hput value
        | cons next rest =>
          rw [assignAt]
          . exact hput _
          . simp

/-! ## Held mappings -/

open Store

variable {s : Store} {number : Nat} {R S A : Set Nat}

theorem map_of_shows_held {tree : Value} (h : Shows s R tree (.held .map number) S)
    : ∃ entries, tree = .map entries := by
  cases htree : tree.isMap with
  | false =>
    rw [shows_iff_of_not_map htree] at h
    exact absurd rfl (h.1 number)
  | true =>
    cases tree with
    | map entries => exact ⟨entries, rfl⟩
    | _ => cases htree

theorem put_eq_of_get {held : List (Value × Value)} (h : s[number]? = some (.map held))
    (key value : Value)
    : s.put number key value = s.setIfInBounds number (.map (putEntry key value held)) := by
  rw [Store.put, Store.entries, h]

theorem getElem?_put_self {held : List (Value × Value)} (h : s[number]? = some (.map held))
    (key value : Value)
    : (s.put number key value)[number]? = some (.map (putEntry key value held)) := by
  rw [put_eq_of_get h, Array.getElem?_setIfInBounds_self_of_lt]
  exact (Array.getElem?_eq_some_iff.mp h).1

theorem getElem?_put_of_ne {n : Nat} (h : n ≠ number) (key value : Value)
    : (s.put number key value)[n]? = s[n]? := by
  rw [Store.put, Array.getElem?_setIfInBounds_ne h.symm]

theorem size_put (s : Store) (number : Nat) (key value : Value)
    : (s.put number key value).size = s.size := by
  simp [Store.put]

theorem assignFrom_cons_of_held {key next : Text} {held : List (Value × Value)} {inner : Nat}
    (hheld : s[number]? = some (.map held)) (h : valueUnder? (.text key) held = some (.held .map inner))
    (value : Value) (rest : List Text)
    : assignFrom value (key :: next :: rest) number s = assignFrom value (next :: rest) inner s := by
  rw [assignFrom, Store.entries, hheld]
  . dsimp only
    rw [h]
  . simp

theorem assignFrom_cons_of_not_held {key next : Text} {held : List (Value × Value)}
    (hheld : s[number]? = some (.map held))
    (h : ∀ inner, valueUnder? (.text key) held ≠ some (.held .map inner)) (value : Value)
    (rest : List Text)
    : assignFrom value (key :: next :: rest) number s
        =
      assignFrom value (next :: rest) s.size
        (Store.put (s.push (.map [])) number (.text key) (.held .map s.size)) := by
  rw [assignFrom, Store.entries, hheld]
  . dsimp only
    split
    next inner heq => exact absurd heq (h inner)
    next =>
      change assignFrom value (next :: rest) ((s.push (.map [])).size - 1) _ = _
      rw [Array.size_push, Nat.add_sub_cancel]
  . simp

/-- A held mapping with the value under one key apart from the others: `S` has the numbers of the whole
mapping, `P` those of the value, and `Q` those of the others. -/
structure Opened (s : Store) (R : Set Nat) (number : Nat) (key : Text)
    (entries held : List (Value × Value)) (S P Q : Set Nat) : Prop where
  number_mem : number ∈ S
  content : s[number]? = some (.map held)
  focus : Focus s R (.text key) entries held P Q
  value_mem : ∀ n ∈ P, n ∈ S ∧ n ≠ number
  other_mem : ∀ n ∈ Q, n ∈ S ∧ n ≠ number
  lt_size : ∀ n, n ∈ S ∨ n ∈ R → n < s.size
  not_mem : ∀ n ∈ R, n ∉ S

theorem exists_opened {entries : List (Value × Value)}
    (h : Shows s R (.map entries) (.held .map number) S)
    (hlt : ∀ n, n ∈ S ∨ n ∈ R → n < s.size) (hR : ∀ n ∈ R, n ∉ S) (key : Text)
    : ∃ held P Q, Opened s R number key entries held S P Q := by
  obtain ⟨n, hn, hnumber, held, hheld, hentries⟩ := shows_map_iff.mp h
  obtain rfl := (Value.held.inj hn).2
  obtain ⟨P, Q, hP, hQ, hfocus⟩ := hentries.exists_focus (.text key)
  exact ⟨held, P, Q, hnumber, hheld, hfocus, hP, hQ, hlt, hR⟩

/-- The mapping under a number after an assignment in it: what it shows, and which numbers it takes. -/
structure Assigned (s t : Store) (R : Set Nat) (number : Nat) (entries : List (Value × Value))
    (S A : Set Nat)
    : Prop where
  shows : Shows t R (.map entries) (.held .map number) (S ∪ A ∪ fresh s t)
  size_le : s.size ≤ t.size
  get : ∀ n < s.size, n ∉ S → t[n]? = s[n]?

namespace Opened

variable {key : Text} {entries held : List (Value × Value)} {P Q : Set Nat} {t : Store}

theorem assigned (h : Opened s R number key entries held S P Q) {tree v : Value} {B : Set Nat}
    (hcontent : t[number]? = some (.map (putEntry (.text key) v held))) (hshows : Shows t R tree v B)
    (hB : ∀ n ∈ B, (n ∈ P ∨ n ∈ A ∨ n ∈ fresh s t) ∧ n ≠ number ∧ n ∉ Q) (hsize : s.size ≤ t.size)
    (hget : ∀ n < s.size, n ∉ P → n ≠ number → t[n]? = s[n]?)
    : Assigned s t R number (putEntry (.text key) tree entries) S A := by
  have hgetS : ∀ n < s.size, n ∉ S → t[n]? = s[n]? := by
    intro n hn hnS
    apply hget n hn
    . exact fun hP => hnS (h.value_mem n hP).1
    . exact fun heq => hnS (heq ▸ h.number_mem)
  refine ⟨shows_map_iff.mpr ⟨_, rfl, .inl (.inl h.number_mem), _, hcontent, ?_⟩, hsize, hgetS⟩
  apply h.focus.put hshows
  . exact Set.disjoint_left.mpr fun n hn => (hB n hn).2.2
  . intro n hn
    obtain ⟨hPA, hne, -⟩ := hB n hn
    refine ⟨?_, hne⟩
    obtain hP | hA | hfresh := hPA
    . exact .inl (.inl (h.value_mem n hP).1)
    . exact .inl (.inr hA)
    . exact .inr hfresh
  . exact fun n hn => ⟨.inl (.inl (h.other_mem n hn).1), (h.other_mem n hn).2⟩
  . rintro n (hn | hn)
    . obtain ⟨hnS, hne⟩ := h.other_mem n hn
      exact hget n (h.lt_size n (.inl hnS)) (Set.disjoint_right.mp h.focus.disjoint hn) hne
    . exact hgetS n (h.lt_size n (.inr hn)) (h.not_mem n hn)

structure Entered (s t : Store) (R : Set Nat) (number inner : Nat) (key : Text)
    (entries held : List (Value × Value)) (P B : Set Nat) : Prop where
  shows : Shows t R (.map (entriesUnder key entries)) (.held .map inner) B
  content : t[number]? = some (.map (putEntry (.text key) (.held .map inner) held))
  size_le : s.size ≤ t.size
  get : ∀ n < s.size, n ≠ number → t[n]? = s[n]?
  subset : ∀ n ∈ B, n ∈ P ∨ n ∈ fresh s t
  step : ∀ value next rest,
    assignFrom value (key :: next :: rest) number s = assignFrom value (next :: rest) inner t

theorem exists_entered (h : Opened s R number key entries held S P Q)
    : ∃ inner t B, Entered s t R number inner key entries held P B := by
  have hshown := h.focus.value
  by_cases hkey : ∃ inner, valueUnder? (.text key) held = some (.held .map inner)
  . obtain ⟨inner, hkey⟩ := hkey
    rw [hkey] at hshown
    obtain ⟨tree, htree, hshows⟩ := hshown.exists_tree
    obtain ⟨below, rfl⟩ := map_of_shows_held hshows
    refine ⟨inner, s, P, ?_, ?_, le_refl _, fun _ _ _ => rfl, fun n hn => .inl hn, ?_⟩
    . rw [entriesUnder, htree]
      exact hshows
    . rw [putEntry_of_valueUnder? hkey]
      exact h.content
    . exact fun value next rest => assignFrom_cons_of_held h.content hkey value rest
  . rw [not_exists] at hkey
    have hempty : entriesUnder key entries = [] := by
      unfold entriesUnder
      split
      next below heq =>
        rw [heq] at hshown
        obtain ⟨v, hv, hshows⟩ := hshown.exists_value
        obtain ⟨inner, rfl, -⟩ := shows_map_iff.mp hshows
        exact absurd hv (hkey inner)
      next => rfl
    have hnumber : number < s.size := (Array.getElem?_eq_some_iff.mp h.content).1
    refine ⟨s.size, _, {s.size}, ?_, ?_, ?_, ?_, ?_,
      fun value next rest => assignFrom_cons_of_not_held h.content hkey value rest⟩
    . rw [hempty]
      refine shows_map_iff.mpr ⟨_, rfl, rfl, [], ?_, trivial⟩
      rw [getElem?_put_of_ne hnumber.ne', Array.getElem?_push_size]
    . apply getElem?_put_self
      rw [(Grows.push s _).get number hnumber, h.content]
    . rw [size_put]
      exact (Grows.push s _).size_le
    . intro n hn hne
      rw [getElem?_put_of_ne hne, (Grows.push s _).get n hn]
    . rintro n rfl
      refine .inr ⟨le_refl _, ?_⟩
      rw [size_put, Array.size_push]
      exact Nat.lt_succ_self _

-- What the inner mapping takes was under the key before, or is new.
theorem Entered.not_mem {inner : Nat} {B : Set Nat}
    (h : Entered s t R number inner key entries held P B) {n : Nat}
    (hn : n < s.size) (hP : n ∉ P) : n ∉ B := by
  intro hnB
  obtain hnB | hnB := h.subset n hnB
  . exact hP hnB
  . exact absurd hn (Nat.not_lt.mpr hnB.1)

theorem Entered.lt_size {inner : Nat} {B : Set Nat}
    (h : Entered s t R number inner key entries held P B)
    (hP : ∀ n ∈ P, n < s.size) : ∀ n ∈ B, n < t.size := by
  intro n hn
  obtain hn | hn := h.subset n hn
  . exact (hP n hn).trans_le h.size_le
  . exact hn.2

theorem Entered.assigned {inner : Nat} {u : Store} {below : List (Value × Value)} {B : Set Nat}
    (h : Entered s t R number inner key entries held P B)
    (hopened : Opened s R number key entries held S P Q)
    (hassigned : Assigned t u R inner below B A) (hA : ∀ n ∈ A, n ≠ number ∧ n ∉ Q)
    : Assigned s u R number (putEntry (.text key) (.map below) entries) S A := by
  have hkept : ∀ n < s.size, n ∉ P → u[n]? = t[n]? :=
    fun n hn hP => hassigned.get n (hn.trans_le h.size_le) (h.not_mem hn hP)
  have hnew : ∀ n, s.size ≤ n → n ≠ number ∧ n ∉ Q := by
    refine fun n hn => ⟨?_, ?_⟩
    . intro heq
      exact absurd (hopened.lt_size number (.inl hopened.number_mem)) (Nat.not_lt.mpr (heq ▸ hn))
    . exact fun hQ => absurd (hopened.lt_size n (.inl (hopened.other_mem n hQ).1)) (Nat.not_lt.mpr hn)
  apply hopened.assigned ?_ hassigned.shows
  . rintro n ((hn | hn) | hn)
    . obtain hn | hn := h.subset n hn
      . exact ⟨.inl hn, (hopened.value_mem n hn).2, Set.disjoint_left.mp hopened.focus.disjoint hn⟩
      . exact ⟨.inr (.inr ⟨hn.1, hn.2.trans_le hassigned.size_le⟩), hnew n hn.1⟩
    . exact ⟨.inr (.inl hn), hA n hn⟩
    . have hle := h.size_le.trans hn.1
      exact ⟨.inr (.inr ⟨hle, hn.2⟩), hnew n hle⟩
  . exact h.size_le.trans hassigned.size_le
  . intro n hn hP hne
    rw [hkept n hn hP, h.get n hn hne]
  . rw [hkept number (hopened.lt_size number (.inl hopened.number_mem)) fun hP =>
      (hopened.value_mem number hP).2 rfl]
    exact h.content

end Opened

theorem assigned_assignFrom {entries : List (Value × Value)} {tree value : Value}
    (h : Shows s R (.map entries) (.held .map number) S) (hlt : ∀ n, n ∈ S ∨ n ∈ R → n < s.size)
    (hR : ∀ n ∈ R, n ∉ S) (hvalue : Shows s R tree value A) (hA : ∀ n ∈ A, n < s.size ∧ n ∉ S)
    (path : List Text)
    : Assigned s (assignFrom value path number s) R number (assignAt tree path entries) S A := by
  induction path generalizing s number entries S with
  | nil =>
    refine ⟨h.transfer ?_ fun _ _ => rfl, le_refl _, fun _ _ _ => rfl⟩
    exact fun n hn => .inl (.inl hn)
  | cons key rest ih =>
    obtain ⟨held, P, Q, hopened⟩ := exists_opened h hlt hR key
    have hother : ∀ n ∈ A, n ≠ number ∧ n ∉ Q := by
      refine fun n hn => ⟨?_, ?_⟩
      . exact fun heq => (hA n hn).2 (heq ▸ hopened.number_mem)
      . exact fun hQ => (hA n hn).2 (hopened.other_mem n hQ).1
    have hshared : ∀ n ∈ R, n < s.size ∧ n ∉ P ∧ n ≠ number := by
      refine fun n hn => ⟨hlt n (.inr hn), ?_, ?_⟩
      . exact fun hP => hR n hn (hopened.value_mem n hP).1
      . exact fun heq => hR n hn (heq ▸ hopened.number_mem)
    cases rest with
    | nil =>
      have hget : ∀ n, n ≠ number → (s.put number (.text key) value)[n]? = s[n]? :=
        fun n hn => getElem?_put_of_ne hn _ _
      apply hopened.assigned (getElem?_put_self hopened.content _ _) (B := A)
      . apply hvalue.transfer subset_rfl
        exact fun n hn => hget n (hn.elim (fun hn => (hother n hn).1) fun hn => (hshared n hn).2.2)
      . exact fun n hn => ⟨.inr (.inl hn), hother n hn⟩
      . exact (size_put ..).ge
      . exact fun n _ _ hne => hget n hne
    | cons next rest =>
      obtain ⟨inner, t, B, hentered⟩ := hopened.exists_entered
      have hassigned : Assigned t (assignFrom value (next :: rest) inner t) R inner
          (assignAt tree (next :: rest) (entriesUnder key entries)) B A := by
        apply ih hentered.shows
        . rintro n (hn | hn)
          . exact hentered.lt_size (fun n hn => hlt n (.inl (hopened.value_mem n hn).1)) n hn
          . exact (hshared n hn).1.trans_le hentered.size_le
        . exact fun n hn => hentered.not_mem (hshared n hn).1 (hshared n hn).2.1
        . apply hvalue.transfer subset_rfl
          rintro n (hn | hn)
          . exact hentered.get n (hA n hn).1 (hother n hn).1
          . exact hentered.get n (hshared n hn).1 (hshared n hn).2.2
        . intro n hn
          refine ⟨(hA n hn).1.trans_le hentered.size_le, hentered.not_mem (hA n hn).1 ?_⟩
          exact fun hP => (hA n hn).2 (hopened.value_mem n hP).1
      rw [hentered.step, assignAt]
      . exact hentered.assigned hopened hassigned hother
      . simp

/-- The document is a mapping with the given entries. No mapping in it that is reached by keys stands at
a second place, be it under other keys or in a list; what is held under numbers of `R` may do so. -/
def Unshared (d : Document) (entries : List (Value × Value)) : Prop :=
  ∃ R, (∀ n ∈ R, n < d.store.size) ∧ Shows d.store R (.map entries) d.value {n | n < d.store.size ∧ n ∉ R}

theorem unshared_assign {d : Document} {entries : List (Value × Value)} {value : Value}
    (h : Unshared d entries) (hvalue : value.Whole) (path : List Text)
    : Unshared (assign d path value) (assignAt value path entries) := by
  obtain ⟨v, s⟩ := d
  obtain ⟨R, hR, h⟩ := h
  obtain ⟨number, rfl, -⟩ := shows_map_iff.mp h
  have hgrows := grows_hold value s
  have hassigned := assigned_assignFrom (h.transfer subset_rfl ?_) ?_ ?_ (shows_hold hvalue hR) ?_ path
  . have hsize := hgrows.size_le.trans hassigned.size_le
    refine ⟨R, fun n hn => (hR n hn).trans_le hsize, hassigned.shows.transfer ?_ fun _ _ => rfl⟩
    rintro n ((hn | hn) | hn)
    . exact ⟨hn.1.trans_le hsize, hn.2⟩
    . exact ⟨hn.2.trans_le hassigned.size_le, fun hnR => absurd (hR n hnR) (Nat.not_lt.mpr hn.1)⟩
    . have hle := hgrows.size_le.trans hn.1
      exact ⟨hn.2, fun hnR => absurd (hR n hnR) (Nat.not_lt.mpr hle)⟩
  . rintro n (hn | hn)
    . exact hgrows.get n hn.1
    . exact hgrows.get n (hR n hn)
  . rintro n (hn | hn)
    . exact hn.1.trans_le hgrows.size_le
    . exact (hR n hn).trans_le hgrows.size_le
  . exact fun n hn hnS => hnS.2 hn
  . exact fun n hn => ⟨hn.2, fun hnS => absurd hnS.1 (Nat.not_lt.mpr hn.1)⟩

theorem Unshared.map_unfold_at? {d : Document} {entries : List (Value × Value)} (h : Unshared d entries)
    (path : List Text) : (d.at? path).map Document.unfold = (Value.map entries).at? path := by
  obtain ⟨R, -, h⟩ := h
  exact Document.map_unfold_at? h (Set.disjoint_left.mpr fun n hn => hn.2) path

end Configuration
end Transclusion
