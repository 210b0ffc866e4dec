import Transclusion.Proofs.FileSystem.Overwrite
import Transclusion.Proofs.Value.Keys
import Transclusion.Yaml.Scalar

/-!
This module contains what the values of scalars have in common: each can be a key, and the doubles
among them are canonical (`isProperKey_scalarValue`).
-/

namespace Transclusion
namespace Yaml

theorem canonical_readDecimal? {text : Text} {x : Binary64} (h : readDecimal? text = some x)
    : x.Canonical := by
  unfold readDecimal? at h
  dsimp only at h
  split at h
  all_goals
    split at h
    . cases h
    . obtain ⟨exponent, -, rfl⟩ := Option.map_eq_some_iff.mp h
      exact Binary64.canonical_ofDecimal _ _ _

theorem canonical_readFloat {text : Text} {x : Binary64} (h : readFloat text = .ok x)
    : x.Canonical := by
  unfold readFloat at h
  dsimp only at h
  split at h
  . cases h
    trivial
  . split at h
    . cases h
      trivial
    . split at h
      next hread =>
        cases h
        exact canonical_readDecimal? hread
      next => cases h

theorem canonical_sixtiethsSum {unit : Nat} {sum x : Binary64} {parts : List Binary64}
    (hsum : sum.Canonical) (h : sixtiethsSum unit sum parts = .ok x) : x.Canonical := by
  induction parts generalizing unit sum with
  | nil =>
    cases h
    exact hsum
  | cons part parts ih =>
    rw [sixtiethsSum] at h
    split at h
    . cases h
    . exact ih (Binary64.canonical_add _ _) h

theorem canonical_withPayload {x : Binary64} (h : x.Canonical) (payload : Nat)
    : (withPayload payload x).Canonical := by
  cases x <;> exact h

theorem canonical_floatValue {payload : Nat} {text : Text} {x : Binary64}
    (h : floatValue payload text = .ok x) : x.Canonical := by
  have hsign : ∀ (negative : Bool) (y : Binary64), y.Canonical →
      (if negative then y.neg else y).Canonical := by
    intro negative y hy
    split
    . exact Binary64.canonical_neg hy
    . exact hy
  obtain ⟨⟨negative, digits⟩, -, h⟩ := exists_of_bind_eq_ok h
  dsimp only at h
  split at h
  . cases h
    trivial
  . split at h
    . cases h
      trivial
    . split at h
      . obtain ⟨parts, -, h⟩ := exists_of_bind_eq_ok h
        obtain ⟨sum, hsum, h⟩ := exists_of_bind_eq_ok h
        cases h
        have hcanonical := canonical_sixtiethsSum (Binary64.canonical_zeroOf false) hsum
        exact hsign _ _ (canonical_withPayload hcanonical payload)
      . obtain ⟨y, hread, h⟩ := exists_of_bind_eq_ok h
        cases h
        exact hsign _ _ (canonical_withPayload (canonical_readFloat hread) payload)

theorem isProperKey_timestampValue {form : TimestampForm} {v : Value}
    (h : timestampValue form = .ok v) : v.IsProperKey := by
  unfold timestampValue at h
  dsimp only at h
  split at h
  . split at h
    . cases h
    . cases h
      rfl
  . split at h
    . cases h
    . split at h
      . cases h
      . cases h
        rfl

theorem exists_of_map_eq_ok {α β : Type} {x : Except Failure α} {f : α → β} {b : β}
    (h : x.map f = .ok b) : ∃ a, x = .ok a ∧ f a = b := by
  cases x with
  | error e => cases h
  | ok a => exact ⟨a, rfl, Except.ok.inj h⟩

theorem isProperKey_scalarValue {payload : Nat} {tag : Tag} {text : Text} {v : Value}
    (h : scalarValue payload tag text = .ok v) : v.IsProperKey := by
  cases tag
  case null | text =>
    cases h
    rfl
  case bool =>
    rw [scalarValue] at h
    split at h
    . cases h
      rfl
    . split at h
      . cases h
        rfl
      . cases h
  case int =>
    obtain ⟨n, -, rfl⟩ := exists_of_map_eq_ok h
    rfl
  case float =>
    obtain ⟨x, hx, rfl⟩ := exists_of_map_eq_ok h
    exact canonical_floatValue hx
  case timestamp =>
    rw [scalarValue] at h
    split at h
    . exact isProperKey_timestampValue h
    . cases h
  case binary =>
    rw [scalarValue] at h
    split at h
    . cases h
    . split at h
      . cases h
        rfl
      . cases h
  all_goals cases h

end Yaml
end Transclusion
