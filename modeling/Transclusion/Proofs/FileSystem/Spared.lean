import Transclusion.Proofs.FileSystem.Frame
import Transclusion.Proofs.Text.Utf8

/-!
This module contains what work on files leaves alone: directories stay, and a file that lies at another
place than the one that is written stays what it is (`Spares`). So it can still be read
(`Spares.readBytes`).
-/

namespace Transclusion

namespace FileTree

variable {before after : FileTree} {here names place : List Text}

theorem entryAt_insert_of_ne (entry : Entry) (h : names ≠ place)
    : FileTree.entryAt (before.insert place entry) names = before.entryAt names := by
  have hne : ¬ (names == place) = true := by simpa using h
  unfold entryAt
  rw [OrderedMap.insert, OrderedMap.get?_alter, if_neg hne]

theorem walk_of_directories
    (h : ∀ names, before.entryAt names = some .directory → after.entryAt names = some .directory)
    (hwalk : before.walk here names = .ok place) : after.walk here names = .ok place := by
  induction names generalizing here with
  | nil => exact hwalk
  | cons name names ih =>
    have hhere := entryAt_of_walk_cons hwalk
    rw [walk, hhere] at hwalk
    rw [walk, h here hhere]
    dsimp only at hwalk ⊢
    split at hwalk
    next hpoint =>
      rw [if_pos hpoint]
      exact ih hwalk
    next hpoint =>
      rw [if_neg hpoint]
      split at hwalk
      next => simp at hwalk
      next hlong =>
        rw [if_neg hlong]
        exact ih hwalk

theorem place_of_walk {t : FileTree} (h : Path.doublePoint ∉ names)
    (hwalk : t.walk here names = .ok place) : place = here ++ names := by
  induction names generalizing here with
  | nil =>
    cases hwalk
    exact (List.append_nil _).symm
  | cons name names ih =>
    rw [List.mem_cons, not_or] at h
    rw [walk, entryAt_of_walk_cons hwalk] at hwalk
    dsimp only at hwalk
    rw [if_neg (Ne.symm h.1)] at hwalk
    split at hwalk
    next => simp at hwalk
    next =>
      rw [ih h.2 hwalk, List.append_assoc]
      rfl

end FileTree

theorem Path.doublePoint_not_mem_collapse (names : List Text) : doublePoint ∉ collapse names := by
  have hfold : ∀ kept, doublePoint ∉ kept → doublePoint ∉ names.foldl
      (fun kept name => if name = doublePoint then kept.dropLast else kept ++ [name]) kept := by
    induction names with
    | nil => exact fun _ h => h
    | cons name names ih =>
      intro kept h
      rw [List.foldl_cons]
      apply ih
      split
      next => exact fun hmem => h (List.dropLast_subset _ hmem)
      next hname =>
        rw [List.mem_append, List.mem_singleton, not_or]
        exact ⟨h, Ne.symm hname⟩
  exact hfold [] List.not_mem_nil

namespace FileSystem

variable {fs before between after : FileSystem} {p : Path} {place names : List Text}

structure Spares (place : List Text) (before after : FileSystem) : Prop where
  directories : ∀ names, before.tree.entryAt names = some .directory →
    after.tree.entryAt names = some .directory
  file : ∀ bytes, before.tree.entryAt place = some (.file bytes) →
    after.tree.entryAt place = some (.file bytes)
  workingDirectory : after.workingDirectory = before.workingDirectory

namespace Spares

theorem refl (place : List Text) (fs : FileSystem) : Spares place fs fs where
  directories _ h := h
  file _ h := h
  workingDirectory := rfl

theorem trans (h : Spares place before between) (h' : Spares place between after)
    : Spares place before after where
  directories names hnames := h'.directories names (h.directories names hnames)
  file bytes hbytes := h'.file bytes (h.file bytes hbytes)
  workingDirectory := h'.workingDirectory.trans h.workingDirectory

end Spares

theorem spares_insert {entry : Entry} (hdirectory : fs.tree.entryAt names ≠ some .directory)
    (hfile : names = place → ∀ bytes, fs.tree.entryAt place ≠ some (.file bytes))
    : Spares place fs { fs with tree := fs.tree.insert names entry } where
  directories other hother := by
    rw [← hother]
    apply FileTree.entryAt_insert_of_ne
    rintro rfl
    exact hdirectory hother
  file bytes hbytes := by
    rw [← hbytes]
    apply FileTree.entryAt_insert_of_ne
    rintro rfl
    exact hfile rfl bytes hbytes
  workingDirectory := rfl

theorem frame_spares (place : List Text) : Frame (Spares place) where
  refl := Spares.refl place
  trans := Spares.trans
  insert {fs names} hnone := by
    apply spares_insert
    . rw [hnone]
      simp
    . rintro rfl bytes
      rw [hnone]
      simp

variable [Surrogates]

theorem locate_of_directories
    (hdirectories : ∀ names, before.tree.entryAt names = some .directory →
      after.tree.entryAt names = some .directory)
    (hworking : after.workingDirectory = before.workingDirectory) (hp : before.locate p = .ok names)
    : after.locate p = .ok names := by
  rw [locate_eq_ok_iff] at hp ⊢
  rw [hworking]
  exact ⟨hp.1, hp.2.1, FileTree.walk_of_directories hdirectories hp.2.2⟩

theorem readText_of_readBytes {text : Text} (h : fs.readBytes p = .ok (Utf8.encode text))
    : fs.readText p = .ok (Utf8.normalizeBreaks text) := by
  obtain ⟨place, hplace, hentry⟩ := readBytes_eq_ok_iff.mp h
  have hfind : fs.find? p = .ok (some (.file (Utf8.encode text))) := by
    rw [find?, hplace]
    dsimp only
    rw [hentry]
  simp [readText, hfind, h, Utf8.decodeLines, Utf8.decode_encode, bind, Except.bind, pure, Except.pure,
    Except.map]

theorem place_of_resolve {q : Path} (h : before.resolve q = .ok p) (hplace : fs.locate p = .ok place)
    : p.root = .slash ∧ place = p.names := by
  unfold resolve Path.resolve at h
  split at h
  next => simp at h
  next =>
    rw [Except.ok.injEq] at h
    obtain ⟨_, _, hwalk⟩ := locate_eq_ok_iff.mp hplace
    have habsolute : p.isAbsolute = true := by
      rw [← h]
      rfl
    rw [Path.join, if_pos habsolute] at hwalk
    refine ⟨by rw [← h], ?_⟩
    have hnames : Path.doublePoint ∉ p.names := by
      rw [← h]
      exact Path.doublePoint_not_mem_collapse _
    exact FileTree.place_of_walk hnames hwalk

theorem eq_of_locate {q p' q' : Path} {fs' : FileSystem} (h : before.resolve q = .ok p)
    (h' : after.resolve q' = .ok p') (hplace : fs.locate p = .ok place)
    (hplace' : fs'.locate p' = .ok place) : p = p' := by
  obtain ⟨hroot, hnames⟩ := place_of_resolve h hplace
  obtain ⟨hroot', hnames'⟩ := place_of_resolve h' hplace'
  cases p
  cases p'
  rw [Path.mk.injEq]
  exact ⟨hroot.trans hroot'.symm, hnames.symm.trans hnames'⟩

namespace Spares

theorem locate (h : Spares place before after) (hp : before.locate p = .ok names)
    : after.locate p = .ok names :=
  locate_of_directories h.directories h.workingDirectory hp

theorem readBytes (h : Spares place before after) (hp : before.locate p = .ok place)
    {bytes : List UInt8} (hbytes : before.readBytes p = .ok bytes) : after.readBytes p = .ok bytes := by
  obtain ⟨_, hplace, hentry⟩ := readBytes_eq_ok_iff.mp hbytes
  rw [hp] at hplace
  cases hplace
  exact readBytes_eq_ok_iff.mpr ⟨place, h.locate hp, h.file bytes hentry⟩

end Spares

theorem spares_updateBytes {f : List UInt8 → List UInt8} (h : fs.updateBytes p f = .ok after)
    (hp : fs.locate p ≠ .ok place) : Spares place fs after := by
  obtain ⟨names, hnames, h⟩ := exists_of_bind_eq_ok h
  have hne : names ≠ place := by
    rintro rfl
    exact hp hnames
  split at h
  next => cases h
  next hentry =>
    cases h
    exact spares_insert (by rw [hentry]; simp) fun heq => absurd heq hne
  next hentry =>
    cases h
    exact spares_insert (by rw [hentry]; simp) fun heq => absurd heq hne

theorem Overwritten.locate {old bytes : List UInt8} (h : Overwritten before after p bytes)
    (hold : before.readBytes p = .ok old) (hplace : before.locate p = .ok place)
    : after.locate p = .ok place ∧ after.tree.entryAt place = some (.file bytes) := by
  obtain ⟨_, hplace', hentry⟩ := readBytes_eq_ok_iff.mp hold
  cases hplace.symm.trans hplace'
  obtain ⟨_, _, hplace', _, hnew, hothers⟩ := h.file
  cases hplace.symm.trans hplace'
  have hne : place.isEmpty = false := by
    cases place with
    | nil => cases hentry
    | cons name names => rfl
  have hdirectories : ∀ names, before.tree.entryAt names = some .directory →
      after.tree.entryAt names = some .directory := by
    intro names hnames
    have hother : names ≠ place := by
      rintro rfl
      rw [hentry] at hnames
      cases hnames
    rw [← hnames]
    unfold FileTree.entryAt
    rw [hothers names hother]
  refine ⟨locate_of_directories hdirectories h.workingDirectory hplace, ?_⟩
  rw [FileTree.entryAt, hne, if_neg (by decide), hnew]

theorem Overwritten.readBytes {old bytes : List UInt8} (h : Overwritten before after p bytes)
    (hold : before.readBytes p = .ok old) : after.readBytes p = .ok bytes := by
  obtain ⟨place, hplace, _⟩ := readBytes_eq_ok_iff.mp hold
  exact readBytes_eq_ok_iff.mpr ⟨place, h.locate hold hplace⟩

theorem Overwritten.trans {old bytes bytes' : List UInt8} (h : Overwritten before between p bytes)
    (h' : Overwritten between after p bytes') (hold : before.readBytes p = .ok old)
    : Overwritten before after p bytes' := by
  obtain ⟨place, found, hplace, hfound, _, hothers⟩ := h.file
  obtain ⟨place', _, hplace', _, hnew, hothers'⟩ := h'.file
  cases (h.locate hold hplace).1.symm.trans hplace'
  refine ⟨⟨place, found, hplace, hfound, hnew, ?_⟩,
    h'.workingDirectory.trans h.workingDirectory⟩
  intro other hother
  rw [hothers' other hother, hothers other hother]

end FileSystem
end Transclusion
