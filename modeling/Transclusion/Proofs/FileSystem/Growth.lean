import Transclusion.Proofs.FileSystem.Spared

/-!
This module contains work that takes nothing away (`Grows`): the making of directories and the writing
behind what a file has (`grows_appendText`). A file that can be read can be read afterwards, and begins
with what it had (`Grows.readBytes`).
-/

namespace Transclusion
namespace FileSystem

variable {fs before between after : FileSystem} {names : List Text} {p : Path} {text : Text}
  {bytes : List UInt8}

structure Grows (before after : FileSystem) : Prop where
  directories : ∀ names, before.tree.entryAt names = some .directory →
    after.tree.entryAt names = some .directory
  files : ∀ names bytes, before.tree.entryAt names = some (.file bytes) →
    ∃ more, after.tree.entryAt names = some (.file (bytes ++ more))
  workingDirectory : after.workingDirectory = before.workingDirectory

namespace Grows

theorem refl (fs : FileSystem) : Grows fs fs where
  directories _ h := h
  files _ bytes h := ⟨[], by rw [h, List.append_nil]⟩
  workingDirectory := rfl

theorem trans (h : Grows before between) (h' : Grows between after) : Grows before after where
  directories names hnames := h'.directories names (h.directories names hnames)
  files names bytes hbytes := by
    obtain ⟨more, hmore⟩ := h.files names bytes hbytes
    obtain ⟨still, hstill⟩ := h'.files names _ hmore
    exact ⟨more ++ still, by rw [hstill, List.append_assoc]⟩
  workingDirectory := h'.workingDirectory.trans h.workingDirectory

end Grows

theorem ne_nil_of_entryAt_ne (h : fs.tree.entryAt names ≠ some .directory) : names ≠ [] := by
  rintro rfl
  exact h rfl

theorem entryAt_insert_self (entry : Entry) (h : fs.tree.entryAt names ≠ some .directory)
    : FileTree.entryAt (fs.tree.insert names entry) names = some entry := by
  have hne : ¬ names.isEmpty = true := by simpa using ne_nil_of_entryAt_ne h
  rw [FileTree.entryAt, if_neg hne, OrderedMap.get?_insert_self]

theorem grows_insert_of_none (hnone : fs.tree.entryAt names = none) (entry : Entry)
    : Grows fs { fs with tree := fs.tree.insert names entry } := by
  have hsame : ∀ other found, fs.tree.entryAt other = some found →
      FileTree.entryAt (fs.tree.insert names entry) other = some found := by
    intro other found hfound
    rw [← hfound]
    apply FileTree.entryAt_insert_of_ne
    rintro rfl
    rw [hnone] at hfound
    cases hfound
  exact {
    directories := fun other h => hsame other _ h
    files := fun other bytes h => ⟨[], by rw [List.append_nil]; exact hsame other _ h⟩
    workingDirectory := rfl
  }

theorem grows_insert_of_file (hfile : fs.tree.entryAt names = some (.file bytes)) (more : List UInt8)
    : Grows fs { fs with tree := fs.tree.insert names (.file (bytes ++ more)) } where
  directories other h := by
    rw [← h]
    apply FileTree.entryAt_insert_of_ne
    rintro rfl
    rw [hfile] at h
    cases h
  files other found h := by
    by_cases hother : other = names
    . subst hother
      rw [hfile] at h
      cases h
      exact ⟨more, entryAt_insert_self _ (by rw [hfile]; simp)⟩
    . exact ⟨[], by rw [List.append_nil, ← h]; exact FileTree.entryAt_insert_of_ne _ hother⟩
  workingDirectory := rfl

theorem frame_grows : Frame Grows where
  refl := Grows.refl
  trans := Grows.trans
  insert hnone := grows_insert_of_none hnone _

variable [Surrogates]

namespace Grows

theorem locate (h : Grows before after) (hp : before.locate p = .ok names)
    : after.locate p = .ok names :=
  locate_of_directories h.directories h.workingDirectory hp

theorem readBytes (h : Grows before after) (hbytes : before.readBytes p = .ok bytes)
    : ∃ more, after.readBytes p = .ok (bytes ++ more) := by
  obtain ⟨place, hplace, hentry⟩ := readBytes_eq_ok_iff.mp hbytes
  obtain ⟨more, hmore⟩ := h.files place bytes hentry
  exact ⟨more, readBytes_eq_ok_iff.mpr ⟨place, h.locate hplace, hmore⟩⟩

end Grows

theorem exists_of_appendText (h : fs.appendText p text = .ok after)
    : ∃ place old, fs.locate p = .ok place ∧ Grows fs after ∧
        after.tree.entryAt place = some (.file (old ++ Utf8.encode text)) := by
  obtain ⟨_, _, h⟩ := exists_of_bind_eq_ok h
  obtain ⟨place, hplace, h⟩ := exists_of_bind_eq_ok h
  split at h
  next => cases h
  next old hold =>
    cases h
    exact ⟨place, old, hplace, grows_insert_of_file hold _, entryAt_insert_self _ (by rw [hold]; simp)⟩
  next hnone =>
    cases h
    exact ⟨place, [], hplace, grows_insert_of_none hnone _,
      entryAt_insert_self _ (by rw [hnone]; simp)⟩

theorem grows_appendText (h : fs.appendText p text = .ok after) : Grows fs after := by
  obtain ⟨_, _, _, hgrows, _⟩ := exists_of_appendText h
  exact hgrows

theorem exists_readBytes_of_appendText (h : fs.appendText p text = .ok after)
    : ∃ bytes, after.readBytes p = .ok bytes := by
  obtain ⟨place, old, hplace, hgrows, hentry⟩ := exists_of_appendText h
  exact ⟨_, readBytes_eq_ok_iff.mpr ⟨place, hgrows.locate hplace, hentry⟩⟩

theorem exists_appendText (h : fs.readBytes p = .ok bytes)
    (htext : Encoding.utf8.check text = .ok ())
    : ∃ after, fs.appendText p text = .ok after ∧
        Overwritten fs after p (bytes ++ Utf8.encode text) := by
  obtain ⟨after, hupdate, hafter⟩ := updateBytes_of_readBytes h (· ++ Utf8.encode text)
  refine ⟨after, ?_, hafter⟩
  rw [appendText, htext]
  exact hupdate

end FileSystem
end Transclusion
