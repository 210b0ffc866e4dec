import Mathlib.Data.List.Perm.Subperm
import Mathlib.Data.Set.BooleanAlgebra
import Mathlib.Data.Set.Disjoint
import Mathlib.Order.CompletePartialOrder
import Transclusion.Value.Store

/-!
This module contains documents in which no mapping that is reached by keys stands at a second place:
they show a tree (`Shows`), and the mappings in disjoint parts of it are held under disjoint numbers.
What such a document shows depends on its numbers alone (`Shows.transfer`), unfolding gives the tree
(`unfold_of_shows`), and holding a value makes a document that shows it (`shows_hold`).
-/

namespace Transclusion

/-! ## Unfolding -/

namespace Document

def lookIn (s : Store) (fuel : Nat) (above : List Nat) (kind : Collection) (n : Nat) : Value :=
  if above.contains n then .held kind n else unfoldFrom s fuel (n :: above) (s[n]?.getD .null)

theorem unfoldFrom_succ (s : Store) (fuel : Nat) (above : List Nat) (v : Value)
    : unfoldFrom s (fuel + 1) above v = v.resolve (lookIn s fuel above) := by rfl

structure Fuelled (s : Store) (fuel : Nat) (above : List Nat) : Prop where
  nodup : above.Nodup
  bound : ∀ n ∈ above, n < s.size
  size_lt : s.size < fuel + above.length

theorem Fuelled.fuel_pos {s : Store} {fuel : Nat} {above : List Nat} (h : Fuelled s fuel above)
    : 0 < fuel := by
  have hrange : above ⊆ List.range s.size := by
    intro n hn
    exact List.mem_range.mpr (h.bound n hn)
  have hlength := (List.subperm_of_subset h.nodup hrange).length_le
  rw [List.length_range] at hlength
  have := h.size_lt
  omega

theorem Fuelled.cons {s : Store} {fuel n : Nat} {above : List Nat} (h : Fuelled s (fuel + 1) above)
    (hn : n ∉ above) (hbound : n < s.size) : Fuelled s fuel (n :: above) where
  nodup := List.nodup_cons.mpr ⟨hn, h.nodup⟩
  bound := by simpa [hbound] using h.bound
  size_lt := by
    have := h.size_lt
    rw [List.length_cons]
    omega

structure Seen (s : Store) (S : Set Nat) (t : Store) (fuel : Nat) (above : List Nat) : Prop where
  get : ∀ n ∈ S, t[n]? = s[n]?
  fuelled : Fuelled t (fuel + 1) above
  not_mem : ∀ n ∈ S, n ∉ above

theorem Seen.transfer {s t u : Store} {S T : Set Nat} {fuel : Nat} {above : List Nat}
    (h : Seen t T u fuel above)
    (hST : S ⊆ T) (hsame : ∀ n ∈ S, t[n]? = s[n]?) : Seen s S u fuel above where
  get n hn := (h.get n (hST hn)).trans (hsame n hn)
  fuelled := h.fuelled
  not_mem n hn := h.not_mem n (hST hn)

theorem Seen.exists_lookIn_eq {s t : Store} {S : Set Nat} {fuel n : Nat} {above : List Nat}
    {content : Value}
    (h : Seen s S t fuel above) (hn : n ∈ S) (hcontent : s[n]? = some content) (kind : Collection)
    : ∃ fuel', Seen s (S \ {n}) t fuel' (n :: above) ∧
        lookIn t fuel above kind n = content.resolve (lookIn t fuel' (n :: above)) := by
  have habove := h.not_mem n hn
  have hcontent' : t[n]? = some content := (h.get n hn).trans hcontent
  have hcons := h.fuelled.cons habove (Array.getElem?_eq_some_iff.mp hcontent').1
  obtain ⟨fuel', rfl⟩ := Nat.exists_eq_succ_of_ne_zero hcons.fuel_pos.ne'
  refine ⟨fuel', ⟨fun m hm => h.get m hm.1, hcons, ?_⟩, ?_⟩
  . intro m hm
    rw [List.mem_cons, not_or]
    exact ⟨hm.2, h.not_mem m hm.1⟩
  . rw [lookIn, if_neg (by simpa using habove), hcontent', Option.getD_some, unfoldFrom_succ]

def Fixed (s : Store) (S : Set Nat) (tree v : Value) : Prop :=
  ∀ t fuel above, Seen s S t fuel above → v.resolve (lookIn t fuel above) = tree

theorem Fixed.transfer {s t : Store} {S T : Set Nat} {tree v : Value} (h : Fixed s S tree v)
    (hST : S ⊆ T) (hsame : ∀ n ∈ S, t[n]? = s[n]?) : Fixed t T tree v :=
  fun u fuel above hseen => h u fuel above (hseen.transfer hST hsame)

theorem seen_self (s : Store) (S : Set Nat) : Seen s S s s.size [] where
  get _ _ := rfl
  fuelled := ⟨List.nodup_nil, by simp, by simp⟩
  not_mem _ _ := List.not_mem_nil

theorem isMap_unfoldFrom {s : Store} {v : Value} (h : v.isMap) (fuel : Nat) (above : List Nat)
    : (unfoldFrom s fuel above v).isMap := by
  cases v with
  | map entries => cases fuel <;> rfl
  | _ => cases h

-- A value that shows no mapping has no entries.
theorem isMap_content_of_fixed {d : Document} {S : Set Nat} {tree : Value}
    (h : Fixed d.store S tree d.value) (htree : tree.isMap = false) : d.content.isMap = false := by
  have hresolve := h d.store _ _ (seen_self d.store S)
  rw [← Bool.not_eq_true]
  intro hmap
  rw [← hresolve, ← Bool.not_eq_true] at htree
  apply htree
  unfold content at hmap
  cases hv : d.value with
  | held kind n =>
    rw [hv] at hmap
    rw [Value.resolve, lookIn, if_neg (by simp)]
    exact isMap_unfoldFrom hmap _ _
  | map entries => rfl
  | _ =>
    rw [hv] at hmap
    cases hmap

end Document

open Document

/-! ## Trees -/

def Apart (P Q : Set Nat → Prop) (S : Set Nat) : Prop :=
  ∃ A B, A ⊆ S ∧ B ⊆ S ∧ Disjoint A B ∧ P A ∧ Q B

mutual

/-- The value shows the tree. The mappings that are reached by keys are under numbers of `S`, each
at one place; whatever else is held is under numbers of `S` or of `R`, which other places may share. -/
def Shows (s : Store) (R : Set Nat) : (tree v : Value) → Set Nat → Prop
  | .map entries, v, S =>
    ∃ n, v = .held .map n ∧ n ∈ S ∧
      ∃ held, s[n]? = some (.map held) ∧ ShowEntries s R entries held (S \ {n})
  | tree, v, S => (∀ n, v ≠ .held .map n) ∧ Fixed s (S ∪ R) tree v

def ShowEntries (s : Store) (R : Set Nat) : (entries held : List (Value × Value)) → Set Nat → Prop
  | [], [], _ => True
  | (key, value) :: entries, (key', v) :: held, S =>
    key = key' ∧ Apart (Shows s R value v) (ShowEntries s R entries held) S
  | _, _, _ => False

end

variable {s : Store} {R S T : Set Nat} {v : Value}

theorem shows_map_iff {entries : List (Value × Value)}
    : Shows s R (.map entries) v S ↔
        ∃ n, v = .held .map n ∧ n ∈ S ∧ ∃ held, s[n]? = some (.map held) ∧
          ShowEntries s R entries held (S \ {n}) := by
  rw [Shows]

theorem shows_iff_of_not_map {tree : Value} (h : tree.isMap = false)
    : Shows s R tree v S ↔ (∀ n, v ≠ .held .map n) ∧ Fixed s (S ∪ R) tree v := by
  cases tree with
  | map entries => cases h
  | _ => rw [Shows]; simp

theorem Apart.imp {P P' Q Q' : Set Nat → Prop} (h : Apart P Q S) (hST : S ⊆ T)
    (hP : ∀ A, A ⊆ S → P A → P' A) (hQ : ∀ B, B ⊆ S → Q B → Q' B) : Apart P' Q' T := by
  obtain ⟨A, B, hA, hB, hdisjoint, hPA, hQB⟩ := h
  exact ⟨A, B, hA.trans hST, hB.trans hST, hdisjoint, hP A hA hPA, hQ B hB hQB⟩

-- A set can be made larger, and other collections do not count.
mutual

theorem Shows.transfer {s t : Store} {R S T : Set Nat} {tree v : Value} (h : Shows s R tree v S)
    (hST : S ⊆ T) (hsame : ∀ n, n ∈ S ∨ n ∈ R → t[n]? = s[n]?) : Shows t R tree v T := by
  cases htree : tree.isMap with
  | false =>
    rw [shows_iff_of_not_map htree] at h ⊢
    exact ⟨h.1, h.2.transfer (Set.union_subset_union_left R hST) hsame⟩
  | true =>
    cases tree with
    | map entries =>
      rw [shows_map_iff] at h ⊢
      obtain ⟨n, hv, hn, held, hheld, h⟩ := h
      refine ⟨n, hv, hST hn, held, (hsame n (.inl hn)).trans hheld, ?_⟩
      apply h.transfer
      . exact fun m hm => ⟨hST hm.1, hm.2⟩
      . exact fun m hm => hsame m (hm.imp_left And.left)
    | _ => cases htree

theorem ShowEntries.transfer {s t : Store} {R S T : Set Nat} {entries held : List (Value × Value)}
    (h : ShowEntries s R entries held S) (hST : S ⊆ T) (hsame : ∀ n, n ∈ S ∨ n ∈ R → t[n]? = s[n]?)
    : ShowEntries t R entries held T := by
  cases entries with
  | nil => cases held <;> exact h
  | cons entry entries =>
    cases held with
    | nil => exact h
    | cons other held =>
      refine ⟨h.1, h.2.imp hST ?_ ?_⟩
      . intro A hA hv
        exact hv.transfer subset_rfl fun n hn => hsame n (hn.imp_left fun hn => hA hn)
      . intro B hB h
        exact h.transfer subset_rfl fun n hn => hsame n (hn.imp_left fun hn => hB hn)

end

mutual

theorem Shows.resolve_eq {s t : Store} {R S : Set Nat} {tree v : Value} {fuel : Nat} {above : List Nat}
    (h : Shows s R tree v S) (hdisjoint : Disjoint S R) (hseen : Seen s (S ∪ R) t fuel above)
    : v.resolve (lookIn t fuel above) = tree := by
  cases htree : tree.isMap with
  | false =>
    rw [shows_iff_of_not_map htree] at h
    exact h.2 t fuel above hseen
  | true =>
    cases tree with
    | map entries =>
      obtain ⟨n, rfl, hn, held, hheld, h⟩ := shows_map_iff.mp h
      obtain ⟨fuel', hseen, hlook⟩ := hseen.exists_lookIn_eq (.inl hn) hheld .map
      rw [Value.resolve, hlook, Value.resolve, h.resolve_eq ?_ (hseen.transfer ?_ fun _ _ => rfl)]
      . exact hdisjoint.mono_left fun m hm => hm.1
      . rintro m (hm | hm)
        . exact ⟨.inl hm.1, hm.2⟩
        . refine ⟨.inr hm, ?_⟩
          rintro rfl
          exact Set.disjoint_left.mp hdisjoint hn hm
    | _ => cases htree

theorem ShowEntries.resolve_eq {s t : Store} {R S : Set Nat} {entries held : List (Value × Value)}
    {fuel : Nat} {above : List Nat} (h : ShowEntries s R entries held S) (hdisjoint : Disjoint S R)
    (hseen : Seen s (S ∪ R) t fuel above)
    : Value.resolveEntries (lookIn t fuel above) held = entries := by
  cases entries with
  | nil =>
    cases held with
    | nil => rfl
    | cons entry held => exact h.elim
  | cons entry entries =>
    cases held with
    | nil => exact h.elim
    | cons other held =>
      obtain ⟨hkey, A, B, hA, hB, -, hv, h⟩ := h
      have hseenA := hseen.transfer (Set.union_subset_union_left R hA) fun _ _ => rfl
      have hseenB := hseen.transfer (Set.union_subset_union_left R hB) fun _ _ => rfl
      rw [Value.resolveEntries, hv.resolve_eq (hdisjoint.mono_left hA) hseenA,
        h.resolve_eq (hdisjoint.mono_left hB) hseenB, ← hkey]

end

theorem Document.unfold_of_shows {d : Document} {tree : Value} (h : Shows d.store R tree d.value S)
    (hdisjoint : Disjoint S R) : d.unfold = tree :=
  h.resolve_eq hdisjoint (seen_self d.store _)

/-! ## Looking up -/

def ShowsOption (s : Store) (R : Set Nat) (tree? v? : Option Value) (S : Set Nat) : Prop :=
  Option.Rel (fun tree v => Shows s R tree v S) tree? v?

theorem ShowsOption.mono {tree? v? : Option Value} (h : ShowsOption s R tree? v? S) (hST : S ⊆ T)
    : ShowsOption s R tree? v? T := by
  cases h with
  | none => exact .none
  | some h => exact .some (h.transfer hST fun _ _ => rfl)

theorem ShowsOption.exists_tree {tree? : Option Value} (h : ShowsOption s R tree? (some v) S)
    : ∃ tree, tree? = some tree ∧ Shows s R tree v S := by
  cases h with
  | some h => exact ⟨_, rfl, h⟩

theorem ShowsOption.exists_value {tree : Value} {v? : Option Value}
    (h : ShowsOption s R (some tree) v? S)
    : ∃ v, v? = some v ∧ Shows s R tree v S := by
  cases h with
  | some h => exact ⟨_, rfl, h⟩

structure Focus (s : Store) (R : Set Nat) (key : Value) (entries held : List (Value × Value))
    (A B : Set Nat)
    : Prop where
  disjoint : Disjoint A B
  value : ShowsOption s R (Value.valueUnder? key entries) (Value.valueUnder? key held) A
  put : ∀ {t : Store} {tree v : Value} {A' T : Set Nat}, Shows t R tree v A' → Disjoint A' B →
    A' ⊆ T → B ⊆ T → (∀ n, n ∈ B ∨ n ∈ R → t[n]? = s[n]?) →
      ShowEntries t R (Value.putEntry key tree entries) (Value.putEntry key v held) T

theorem ShowEntries.exists_focus {entries held : List (Value × Value)}
    (h : ShowEntries s R entries held S) (key : Value)
    : ∃ A B, A ⊆ S ∧ B ⊆ S ∧ Focus s R key entries held A B := by
  induction entries generalizing held S with
  | nil =>
    cases held with
    | cons other held => exact h.elim
    | nil =>
      refine ⟨∅, ∅, S.empty_subset, S.empty_subset, Set.disjoint_empty ∅, .none, ?_⟩
      intro t tree v A' T hv _ hA' _ _
      exact ⟨rfl, A', ∅, hA', T.empty_subset, Set.disjoint_empty A', hv, trivial⟩
  | cons entry entries ih =>
    cases held with
    | nil => exact h.elim
    | cons other held =>
      obtain ⟨hkey, A, B, hA, hB, hdisjoint, hv, h⟩ := h
      by_cases hsame : entry.1.sameKey key
      . refine ⟨A, B, hA, hB, hdisjoint, ?_, ?_⟩
        . rw [Value.valueUnder?, Value.valueUnder?, ← hkey, if_pos hsame, if_pos hsame]
          exact .some hv
        . intro t tree v A' T hv hdisjoint hA' hB hB'
          rw [Value.putEntry, Value.putEntry, ← hkey, if_pos hsame, if_pos hsame]
          exact ⟨rfl, A', B, hA', hB, hdisjoint, hv, h.transfer subset_rfl hB'⟩
      . obtain ⟨A₂, B₂, hA₂, hB₂, hfocus⟩ := ih h
        rw [Set.disjoint_left] at hdisjoint
        have hrest : Disjoint A₂ (A ∪ B₂) := by
          rw [Set.disjoint_union_right]
          refine ⟨?_, hfocus.disjoint⟩
          rw [Set.disjoint_right]
          intro n hn hn₂
          exact hdisjoint hn (hA₂ hn₂)
        refine ⟨A₂, A ∪ B₂, hA₂.trans hB, Set.union_subset hA (hB₂.trans hB), hrest, ?_, ?_⟩
        . rw [Value.valueUnder?, Value.valueUnder?, ← hkey, if_neg hsame, if_neg hsame]
          exact hfocus.value
        . intro t tree v' A' T hv' hdisjoint' hA' hAB hsame'
          rw [Set.disjoint_union_right] at hdisjoint'
          rw [Value.putEntry, Value.putEntry, ← hkey, if_neg hsame, if_neg hsame]
          refine ⟨rfl, A, A' ∪ B₂, ?_, ?_, ?_, ?_, ?_⟩
          . exact Set.subset_union_left.trans hAB
          . exact Set.union_subset hA' (Set.subset_union_right.trans hAB)
          . rw [Set.disjoint_union_right]
            refine ⟨hdisjoint'.1.symm, ?_⟩
            rw [Set.disjoint_left]
            intro n hn hn₂
            exact hdisjoint hn (hB₂ hn₂)
          . exact hv.transfer subset_rfl fun n hn => hsame' n (hn.imp_left .inl)
          . exact hfocus.put hv' hdisjoint'.2 Set.subset_union_left Set.subset_union_right
              fun n hn => hsame' n (hn.imp_left .inr)

def Value.at? (tree : Value) (path : List Text) : Option Value :=
  path.foldlM (fun tree name => tree.field? name) tree

theorem Value.field?_of_not_map {v : Value} (h : v.isMap = false) (name : Text)
    : v.field? name = none := by
  cases v with
  | map entries => cases h
  | _ => rfl

theorem Document.field?_content_of_shows {d : Document} {tree : Value}
    (h : Shows d.store R tree d.value S)
    (name : Text) : ShowsOption d.store R (tree.field? name) (d.content.field? name) S := by
  cases htree : tree.isMap with
  | false =>
    rw [shows_iff_of_not_map htree] at h
    rw [Value.field?_of_not_map htree, Value.field?_of_not_map (isMap_content_of_fixed h.2 htree)]
    exact .none
  | true =>
    cases tree with
    | map entries =>
      obtain ⟨n, hv, -, held, hheld, h⟩ := shows_map_iff.mp h
      obtain ⟨A, B, hA, -, hfocus⟩ := h.exists_focus (.text name)
      have hcontent : d.content = .map held := by
        rw [content, hv]
        dsimp only
        rw [hheld, Option.getD_some]
      rw [hcontent]
      exact hfocus.value.mono fun m hm => (hA hm).1
    | _ => cases htree

theorem Document.map_unfold_at? {d : Document} {tree : Value} (h : Shows d.store R tree d.value S)
    (hdisjoint : Disjoint S R) (path : List Text) : (d.at? path).map unfold = tree.at? path := by
  induction path generalizing d tree with
  | nil => exact congrArg some (unfold_of_shows h hdisjoint)
  | cons name path ih =>
    have hfield := field?_content_of_shows h name
    have hat : d.at? (name :: path)
        = ((d.content.field? name).map ({ d with value := · })).bind (·.at? path) := by rfl
    have htree : tree.at? (name :: path) = (tree.field? name).bind (·.at? path) := by rfl
    rw [hat, htree]
    generalize tree.field? name = tree? at hfield ⊢
    generalize d.content.field? name = v? at hfield ⊢
    cases hfield with
    | none => rfl
    | some h => exact ih h

/-! ## Holding -/

def Value.Whole (v : Value) : Prop :=
  ∀ f, v.resolve f = v

def Value.WholeItems (items : List Value) : Prop :=
  ∀ f, Value.resolveItems f items = items

def Value.WholeEntries (entries : List (Value × Value)) : Prop :=
  ∀ f, Value.resolveEntries f entries = entries

theorem Value.whole_list_iff {items : List Value} : (Value.list items).Whole ↔ WholeItems items :=
  ⟨fun h f => Value.list.inj (h f), fun h f => congrArg Value.list (h f)⟩

theorem Value.whole_map_iff {entries : List (Value × Value)}
    : (Value.map entries).Whole ↔ WholeEntries entries :=
  ⟨fun h f => Value.map.inj (h f), fun h f => congrArg Value.map (h f)⟩

theorem Value.wholeItems_cons_iff {item : Value} {items : List Value}
    : WholeItems (item :: items) ↔ item.Whole ∧ WholeItems items := by
  constructor
  . intro h
    exact ⟨fun f => (List.cons.inj (h f)).1, fun f => (List.cons.inj (h f)).2⟩
  . intro ⟨hitem, hitems⟩ f
    exact congrArg₂ List.cons (hitem f) (hitems f)

theorem Value.wholeEntries_cons_iff {entry : Value × Value} {entries : List (Value × Value)}
    : WholeEntries (entry :: entries) ↔ entry.2.Whole ∧ WholeEntries entries := by
  constructor
  . intro h
    exact ⟨fun f => (Prod.mk.inj (List.cons.inj (h f)).1).2, fun f => (List.cons.inj (h f)).2⟩
  . intro ⟨hentry, hentries⟩ f
    exact congrArg₂ List.cons (congrArg (entry.1, ·) (hentry f)) (hentries f)

namespace Store

structure Grows (s t : Store) : Prop where
  size_le : s.size ≤ t.size
  get : ∀ n < s.size, t[n]? = s[n]?

def fresh (s t : Store) : Set Nat :=
  {n | s.size ≤ n ∧ n < t.size}

theorem Grows.refl (s : Store) : Grows s s :=
  ⟨le_refl _, fun _ _ => rfl⟩

theorem Grows.trans {s t u : Store} (h : Grows s t) (h' : Grows t u) : Grows s u where
  size_le := h.size_le.trans h'.size_le
  get n hn := (h'.get n (hn.trans_le h.size_le)).trans (h.get n hn)

theorem Grows.push (s : Store) (v : Value) : Grows s (s.push v) where
  size_le := by simp
  get n hn := by
    rw [Array.getElem?_push, if_neg (by omega)]

variable {s t u : Store}

theorem fresh_subset (h : Grows t u) : fresh s t ⊆ fresh s u :=
  fun _ hn => ⟨hn.1, hn.2.trans_le h.size_le⟩

-- What stood before `t`, in part even before `s`, is the same in `u`.
theorem Grows.get_or (h : Grows t u) (h' : Grows s t) {R : Set Nat} (hR : ∀ n ∈ R, n < s.size)
    : ∀ n, n ∈ fresh s t ∨ n ∈ R → u[n]? = t[n]? := by
  rintro n (hn | hn)
  . exact h.get n hn.2
  . exact h.get n ((hR n hn).trans_le h'.size_le)

theorem fresh_subset_of_le (h : Grows s t) : fresh t u ⊆ fresh s u :=
  fun _ hn => ⟨h.size_le.trans hn.1, hn.2⟩

theorem disjoint_fresh (s t u : Store) : Disjoint (fresh s t) (fresh t u) := by
  rw [Set.disjoint_left]
  intro n hn hn'
  exact absurd hn'.1 (Nat.not_le.mpr hn.2)

-- What is pushed last has a number of its own.
theorem mem_fresh_push (h : Grows s t) (v : Value) : t.size ∈ fresh s (t.push v) := by
  refine ⟨h.size_le, ?_⟩
  rw [Array.size_push]
  exact Nat.lt_succ_self _

theorem fresh_subset_push (v : Value) : fresh s t ⊆ fresh s (t.push v) \ {t.size} := by
  intro n hn
  exact ⟨fresh_subset (Grows.push t v) hn, hn.2.ne⟩

end Store

open Store

theorem Apart.of_fresh {s t u : Store} {P Q : Set Nat → Prop} (h : Grows s t) (h' : Grows t u)
    (hP : P (fresh s t)) (hQ : Q (fresh t u)) : Apart P Q (fresh s u) :=
  ⟨fresh s t, fresh t u, fresh_subset h', fresh_subset_of_le h, disjoint_fresh s t u, hP, hQ⟩

mutual

theorem grows_hold (v : Value) (s : Store) : Grows s (v.hold s).2 := by
  cases v with
  | pair first second => exact (grows_hold first s).trans (grows_hold second _)
  | list items => exact (grows_holdItems items s).trans (Grows.push _ _)
  | map entries => exact (grows_holdEntries entries s).trans (Grows.push _ _)
  | members items => exact Grows.push _ _
  | _ => exact Grows.refl s

theorem grows_holdItems (items : List Value) (s : Store) : Grows s (Value.holdItems items s).2 := by
  cases items with
  | nil => exact Grows.refl s
  | cons item items => exact (grows_hold item s).trans (grows_holdItems items _)

theorem grows_holdEntries (entries : List (Value × Value)) (s : Store)
    : Grows s (Value.holdEntries entries s).2 := by
  cases entries with
  | nil => exact Grows.refl s
  | cons entry entries => exact (grows_hold entry.2 s).trans (grows_holdEntries entries _)

end

-- What is in use before the last push is so apart from the pushed number.
theorem Document.Seen.of_push {s t u : Store} {content : Value} {fuel : Nat} {above : List Nat}
    (h : Seen (t.push content) (fresh s (t.push content) \ {t.size}) u fuel above)
    : Seen t (fresh s t) u fuel above :=
  h.transfer (fresh_subset_push content) fun n hn => (Grows.push t content).get n hn.2

mutual

theorem fixed_hold {v : Value} (h : v.Whole) (s : Store)
    : Fixed (v.hold s).2 (fresh s (v.hold s).2) v (v.hold s).1 := by
  intro t fuel above hseen
  cases v with
  | pair first second =>
    have hgrows := grows_hold second (first.hold s).2
    have hfirst := fixed_hold (fun f => (Value.pair.inj (h f)).1) s t fuel above
      (hseen.transfer (fresh_subset hgrows) fun n hn => hgrows.get n hn.2)
    have hsecond := fixed_hold (fun f => (Value.pair.inj (h f)).2) (first.hold s).2 t fuel above
      (hseen.transfer (fresh_subset_of_le (grows_hold first s)) fun _ _ => rfl)
    exact congrArg₂ Value.pair hfirst hsecond
  | list items =>
    have hmem := mem_fresh_push (grows_holdItems items s) (.list (Value.holdItems items s).1)
    obtain ⟨fuel', hseen, hlook⟩ := hseen.exists_lookIn_eq hmem Array.getElem?_push_size .list
    have hitems := fixedItems_hold (Value.whole_list_iff.mp h) hseen.of_push
    exact hlook.trans (congrArg Value.list hitems)
  | map entries =>
    have hmem := mem_fresh_push (grows_holdEntries entries s) (.map (Value.holdEntries entries s).1)
    obtain ⟨fuel', hseen, hlook⟩ := hseen.exists_lookIn_eq hmem Array.getElem?_push_size .map
    have hentries := fixedEntries_hold (Value.whole_map_iff.mp h) hseen.of_push
    exact hlook.trans (congrArg Value.map hentries)
  | members items =>
    obtain ⟨fuel', -, hlook⟩ :=
      hseen.exists_lookIn_eq (mem_fresh_push (Grows.refl s) _) Array.getElem?_push_size .members
    exact hlook
  | held kind n => cases h fun _ _ => .null
  | _ => rfl

theorem fixedItems_hold {items : List Value} (h : Value.WholeItems items) {s t : Store} {fuel : Nat}
    {above : List Nat}
    (hseen : Seen (Value.holdItems items s).2 (fresh s (Value.holdItems items s).2) t fuel above)
    : Value.resolveItems (lookIn t fuel above) (Value.holdItems items s).1 = items := by
  cases items with
  | nil => rfl
  | cons item items =>
    have hgrows := grows_holdItems items (item.hold s).2
    obtain ⟨hitem, hitems⟩ := Value.wholeItems_cons_iff.mp h
    have hitem := fixed_hold hitem s t fuel above
      (hseen.transfer (fresh_subset hgrows) fun n hn => hgrows.get n hn.2)
    have hitems := fixedItems_hold hitems
      (hseen.transfer (fresh_subset_of_le (grows_hold item s)) fun _ _ => rfl)
    exact congrArg₂ List.cons hitem hitems

theorem fixedEntries_hold {entries : List (Value × Value)} (h : Value.WholeEntries entries)
    {s t : Store} {fuel : Nat} {above : List Nat}
    (hseen : Seen (Value.holdEntries entries s).2 (fresh s (Value.holdEntries entries s).2) t fuel above)
    : Value.resolveEntries (lookIn t fuel above) (Value.holdEntries entries s).1 = entries := by
  cases entries with
  | nil => rfl
  | cons entry entries =>
    have hgrows := grows_holdEntries entries (entry.2.hold s).2
    obtain ⟨hentry, hentries⟩ := Value.wholeEntries_cons_iff.mp h
    have hentry := fixed_hold hentry s t fuel above
      (hseen.transfer (fresh_subset hgrows) fun n hn => hgrows.get n hn.2)
    have hentries := fixedEntries_hold hentries
      (hseen.transfer (fresh_subset_of_le (grows_hold entry.2 s)) fun _ _ => rfl)
    exact congrArg₂ List.cons (congrArg (entry.1, ·) hentry) hentries

end

theorem hold_ne_held_map {v : Value} (h : v.Whole) (hmap : v.isMap = false) (s : Store) (n : Nat)
    : (v.hold s).1 ≠ .held .map n := by
  cases v with
  | held kind m => cases h fun _ _ => .null
  | map entries => cases hmap
  | list items =>
    intro heq
    cases (Value.held.inj heq).1
  | members items =>
    intro heq
    cases (Value.held.inj heq).1
  | _ =>
    intro heq
    cases heq

mutual

theorem shows_hold {v : Value} (h : v.Whole) {R : Set Nat} {s : Store} (hR : ∀ n ∈ R, n < s.size)
    : Shows (v.hold s).2 R v (v.hold s).1 (fresh s (v.hold s).2) := by
  cases hmap : v.isMap with
  | false =>
    rw [shows_iff_of_not_map hmap]
    exact ⟨hold_ne_held_map h hmap s, (fixed_hold h s).transfer Set.subset_union_left fun _ _ => rfl⟩
  | true =>
    cases v with
    | map entries =>
      have hentries := showEntries_hold (Value.whole_map_iff.mp h) hR
      have hgrows := grows_holdEntries entries s
      rw [shows_map_iff]
      refine ⟨_, rfl, mem_fresh_push hgrows _, _, Array.getElem?_push_size, ?_⟩
      exact hentries.transfer (fresh_subset_push _) ((Grows.push _ _).get_or hgrows hR)
    | _ => cases hmap

theorem showEntries_hold {entries : List (Value × Value)} (h : Value.WholeEntries entries)
    {R : Set Nat} {s : Store} (hR : ∀ n ∈ R, n < s.size)
    : ShowEntries (Value.holdEntries entries s).2 R entries (Value.holdEntries entries s).1
        (fresh s (Value.holdEntries entries s).2) := by
  cases entries with
  | nil => trivial
  | cons entry entries =>
    have hgrows := grows_hold entry.2 s
    have hgrows' := grows_holdEntries entries (entry.2.hold s).2
    obtain ⟨hentry, hentries⟩ := Value.wholeEntries_cons_iff.mp h
    have hentry := shows_hold hentry hR
    have hentries := showEntries_hold hentries
      fun n hn => (hR n hn).trans_le hgrows.size_le
    refine ⟨rfl, Apart.of_fresh hgrows hgrows' ?_ hentries⟩
    exact hentry.transfer subset_rfl (hgrows'.get_or hgrows hR)

end

end Transclusion
