import Transclusion.Configuration.Coercion
import Transclusion.Proofs.FileSystem.Overwrite
import Transclusion.Proofs.Value.Tree

/-!
This module contains that nothing in a value read from a text is held by a store (`whole_coerce`).
-/

namespace Transclusion

namespace Value

theorem resolveEntries_putEntry (f : Collection → Nat → Value) (key value : Value)
    (entries : List (Value × Value))
    : resolveEntries f (putEntry key value entries)
        =
      putEntry key (value.resolve f) (resolveEntries f entries) := by
  induction entries with
  | nil => rfl
  | cons entry entries ih =>
    rw [putEntry, resolveEntries, putEntry]
    by_cases hkey : entry.1.sameKey key
    . rw [if_pos hkey, if_pos hkey, resolveEntries]
    . rw [if_neg hkey, if_neg hkey, resolveEntries, ih]

theorem wholeEntries_assign {pairs : List (Value × Value)} (h : WholeEntries pairs)
    : WholeEntries (assign pairs) := by
  intro f
  unfold assign
  have hstart : resolveEntries f [] = [] := rfl
  generalize ([] : List (Value × Value)) = entries at hstart ⊢
  induction pairs generalizing entries with
  | nil => exact hstart
  | cons pair pairs ih =>
    obtain ⟨hpair, hpairs⟩ := wholeEntries_cons_iff.mp h
    apply ih hpairs
    rw [resolveEntries_putEntry, hstart, hpair f]

end Value

open Value

namespace Json

def Reads {α : Type} (P : α → Prop) (x : Except Stop (α × Text)) : Prop :=
  ∀ a rest, x = .ok (a, rest) → P a

variable {α β : Type} {P : α → Prop} {Q : β → Prop}

theorem Reads.ok {a : α} (h : P a) (rest : Text) : Reads P (.ok (a, rest)) := by
  intro a' rest' heq
  obtain ⟨rfl, rfl⟩ := Prod.mk.inj (Except.ok.inj heq)
  exact h

theorem Reads.error (stop : Stop) : Reads P (.error stop) := by
  intro a rest heq
  cases heq

theorem Reads.bind {x : Except Stop (β × Text)} {f : β × Text → Except Stop (α × Text)} (hx : Reads Q x)
    (hf : ∀ b rest, Q b → Reads P (f (b, rest))) : Reads P (x >>= f) := by
  cases x with
  | error stop => exact .error stop
  | ok result => exact hf result.1 result.2 (hx _ _ rfl)

theorem Reads.trivial (x : Except Stop (α × Text)) : Reads (fun _ => True) x :=
  fun _ _ _ => True.intro

theorem whole_word {text : Text} {v : Value} {rest : Text} (h : word? text = some (v, rest))
    : v.Whole := by
  obtain ⟨word, hword, h⟩ := List.exists_of_findSome?_eq_some h
  obtain ⟨_, _, heq⟩ := Option.map_eq_some_iff.mp h
  obtain ⟨rfl, -⟩ := Prod.mk.inj heq
  have hwords : ∀ word ∈ words, word.2.Whole := by
    simp [words, Whole, resolve]
  exact hwords word hword

theorem whole_number {text : Text} {v : Value} {rest : Text} (h : number? text = some (v, rest))
    : v.Whole := by
  unfold number? at h
  dsimp only at h
  obtain ⟨⟨whole, rest'⟩, -, h⟩ := Option.bind_eq_some_iff.mp h
  obtain ⟨-, h⟩ | ⟨-, h⟩ := ite_eq_iff.mp h
  . cases h
    exact fun _ => rfl
  . cases h
    exact fun _ => rfl

theorem reads_scalar (text : Text) : Reads Whole (scalar text) := by
  unfold scalar
  dsimp only
  split
  next h => exact .ok (whole_word h) _
  next =>
    split
    next h => exact .ok (whole_number h) _
    next => exact .error _

variable [Surrogates]

section Step

variable {fuel : Nat}

theorem reads_value (hitems : ∀ text, Reads WholeItems (items fuel text))
    (hentries : ∀ text, Reads WholeEntries (entries fuel text)) (text : Text)
    : Reads Whole (value (fuel + 1) text) := by
  rw [value.eq_def]
  dsimp only
  split
  next rest =>
    refine Reads.bind (Reads.trivial _) ?_
    intro t rest _
    exact .ok (fun _ => rfl) rest
  next rest =>
    split
    next => exact .ok (fun _ => rfl) _
    next =>
      refine Reads.bind (hitems _) ?_
      intro items rest h
      exact .ok (whole_list_iff.mpr h) rest
  next rest =>
    split
    next => exact .ok (fun _ => rfl) _
    next =>
      refine Reads.bind (hentries _) ?_
      intro entries rest h
      exact .ok (whole_map_iff.mpr (wholeEntries_assign h)) rest
  next => exact reads_scalar text

theorem reads_items (hvalue : ∀ text, Reads Whole (value fuel text))
    (hitems : ∀ text, Reads WholeItems (items fuel text)) (text : Text)
    : Reads WholeItems (items (fuel + 1) text) := by
  rw [items.eq_def]
  refine Reads.bind (hvalue text) ?_
  intro item rest hitem
  dsimp only
  split
  next => exact .ok (wholeItems_cons_iff.mpr ⟨hitem, fun _ => rfl⟩) _
  next =>
    refine Reads.bind (hitems _) ?_
    intro items rest h
    exact .ok (wholeItems_cons_iff.mpr ⟨hitem, h⟩) rest
  next => exact .error _

theorem reads_entries (hvalue : ∀ text, Reads Whole (value fuel text))
    (hentries : ∀ text, Reads WholeEntries (entries fuel text)) (text : Text)
    : Reads WholeEntries (entries (fuel + 1) text) := by
  rw [entries.eq_def]
  dsimp only
  split
  next rest =>
    refine Reads.bind (Reads.trivial _) ?_
    intro name rest _
    dsimp only
    split
    next =>
      refine Reads.bind (hvalue _) ?_
      intro value rest hv
      dsimp only
      split
      next => exact .ok (wholeEntries_cons_iff.mpr ⟨hv, fun _ => rfl⟩) _
      next =>
        refine Reads.bind (hentries _) ?_
        intro entries rest h
        exact .ok (wholeEntries_cons_iff.mpr ⟨hv, h⟩) rest
      next => exact .error _
    next => exact .error _
  next => exact .error _

end Step

theorem reads_whole (fuel : Nat)
    : (∀ text, Reads Whole (value fuel text)) ∧ (∀ text, Reads WholeItems (items fuel text)) ∧
        ∀ text, Reads WholeEntries (entries fuel text) := by
  induction fuel with
  | zero => exact ⟨fun _ => .error _, fun _ => .error _, fun _ => .error _⟩
  | succ fuel ih =>
    obtain ⟨hvalue, hitems, hentries⟩ := ih
    exact ⟨reads_value hitems hentries, reads_items hvalue hitems, reads_entries hvalue hentries⟩

theorem whole_read {text : Text} {v : Value} (h : read text = .ok v) : v.Whole := by
  unfold read at h
  split at h
  next => cases h
  next =>
    split at h
    next => cases h
    next result rest hvalue =>
      split at h
      next =>
        cases h
        exact (reads_whole _).1 _ v rest hvalue
      next => cases h

end Json

variable [Surrogates]

theorem Configuration.whole_json {text : Text} {v : Value} (h : json? text = some v) : v.Whole := by
  unfold json? at h
  dsimp only at h
  split at h
  next =>
    cases hread : Json.read (Text.strip text) with
    | error fault =>
      rw [hread] at h
      cases h
    | ok value =>
      rw [hread] at h
      cases h
      exact Json.whole_read hread
  next => cases h

theorem Configuration.whole_coerce {text : Text} {v : Value} (h : coerce text = .ok v) : v.Whole := by
  unfold coerce at h
  split at h
  next =>
    cases h
    exact fun _ => rfl
  next =>
    obtain ⟨n?, -, h⟩ := exists_of_bind_eq_ok h
    split at h
    next =>
      cases h
      exact fun _ => rfl
    next =>
      split at h
      next =>
        cases h
        exact fun _ => rfl
      next =>
        split at h
        next value hvalue =>
          cases h
          exact whole_json hvalue
        next =>
          cases h
          exact fun _ => rfl
end Transclusion
