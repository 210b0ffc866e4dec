import Transclusion.Proofs.FileSystem.Overwrite

/-!
This module contains what the making of directories does to a file system, up to any relation that allows
for a directory where nothing is (`Frame.makeDirectories`).
-/

namespace Transclusion
namespace FileSystem

/-- What one can say of file systems before and after work on them, if the work may put directories where
nothing is. -/
structure Frame (R : FileSystem → FileSystem → Prop) : Prop where
  refl : ∀ fs, R fs fs
  trans : ∀ {before between after}, R before between → R between after → R before after
  insert : ∀ {fs : FileSystem} {names}, fs.tree.entryAt names = none →
    R fs { fs with tree := fs.tree.insert names .directory }

namespace Frame

variable [Surrogates] {R : FileSystem → FileSystem → Prop} {fs after : FileSystem} {p : Path}

theorem makeDirectory (hframe : Frame R) (h : fs.makeDirectory p = .ok after) : R fs after := by
  obtain ⟨names, _, h⟩ := exists_of_bind_eq_ok h
  split at h
  next => cases h
  next hnone =>
    rw [Bool.not_eq_true, Option.isSome_eq_false_iff, Option.isNone_iff_eq_none] at hnone
    cases h
    exact hframe.insert hnone

theorem makeDirectoryIfNew (hframe : Frame R) (h : fs.makeDirectoryIfNew p = .ok after)
    : R fs after := by
  unfold FileSystem.makeDirectoryIfNew at h
  split at h
  next =>
    obtain ⟨entry, _, h⟩ := exists_of_bind_eq_ok h
    split at h
    next =>
      cases h
      exact hframe.refl fs
    next => cases h
  next => exact hframe.makeDirectory h

theorem makeDirectories (hframe : Frame R) (h : fs.makeDirectories p = .ok after) : R fs after := by
  have hgo : ∀ (reversed : List Text) (after : FileSystem),
      makeDirectories.go fs p reversed = .ok after → R fs after := by
    intro reversed
    induction reversed with
    | nil => exact fun _ h => hframe.makeDirectoryIfNew h
    | cons name above ih =>
      intro after h
      rw [makeDirectories.go] at h
      split at h
      next =>
        obtain ⟨made, hmade, h⟩ := exists_of_bind_eq_ok h
        exact hframe.trans (ih made hmade) (hframe.makeDirectoryIfNew h)
      next => exact hframe.makeDirectoryIfNew h
  exact hgo _ _ h

theorem ensureDirectory (hframe : Frame R) {create : Bool} (h : fs.ensureDirectory p create = .ok after)
    : R fs after := by
  obtain ⟨entry, _, h⟩ := exists_of_bind_eq_ok h
  split at h
  next =>
    cases h
    exact hframe.refl fs
  next => cases h
  next =>
    split at h
    next => exact hframe.makeDirectories h
    next => cases h

end Frame
end FileSystem
end Transclusion
