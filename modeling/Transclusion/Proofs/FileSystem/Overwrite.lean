import Transclusion.FileSystem.Basic

/-!
This module contains the writing over a file that can be read: as the directories around the file are
there, it can be emptied (`truncate_of_readBytes`), and no other file changes.
-/

namespace Transclusion

theorem exists_of_bind_eq_ok {α β : Type} {x : Except Failure α} {f : α → Except Failure β} {b : β}
    (h : (x >>= f) = .ok b) : ∃ a, x = .ok a ∧ f a = .ok b := by
  cases x with
  | error e => simp [bind, Except.bind] at h
  | ok a => exact ⟨a, rfl, h⟩

namespace FileTree

variable {t : FileTree} {here place : List Text}

theorem entryAt_of_walk_cons {name : Text} {rest : List Text}
    (h : t.walk here (name :: rest) = .ok place) : t.entryAt here = some .directory := by
  unfold walk at h
  split at h
  next => simp at h
  next => simp at h
  next hentry => exact hentry

theorem walk_append (t : FileTree) (here before after : List Text)
    : t.walk here (before ++ after) = (t.walk here before).bind (t.walk · after) := by
  induction before generalizing here with
  | nil => rfl
  | cons name before ih =>
    rw [List.cons_append, walk, walk]
    split
    . rfl
    . rfl
    . split
      . exact ih _
      . split
        . rfl
        . exact ih _

end FileTree

theorem Utf8.length_encode_append (a b : Text)
    : (encode (a ++ b)).length = (encode a).length + (encode b).length := by
  simp [encode]

theorem exists_intercalate_concat (separator : Text) (before : List Text) (name : Text)
    : ∃ tail, separator.intercalate (before ++ [name]) = separator.intercalate before ++ tail := by
  induction before with
  | nil => exact ⟨_, rfl⟩
  | cons first before ih =>
    obtain ⟨tail, ih⟩ := ih
    cases before with
    | nil => exact ⟨separator ++ name, by simp [List.intercalate]⟩
    | cons second before =>
      refine ⟨tail, ?_⟩
      rw [List.cons_append, List.cons_append, List.intercalate_cons_cons, ← List.cons_append, ih,
        List.intercalate_cons_cons, List.append_assoc _ _ tail]

namespace FileSystem

variable {fs : FileSystem} {p : Path} {place : List Text}

theorem toText_of_isAbsolute (hp : p.isAbsolute = true)
    : p.toText = p.root.text ++ (['/'] : Text).intercalate p.names := by
  unfold Path.toText
  rw [Path.isAbsolute, bne_iff_ne] at hp
  simp [hp]

variable [Surrogates]

theorem locate_eq_ok_iff
    : fs.locate p = .ok place ↔
        p.isImpossible = false ∧ (Utf8.encode p.toText).length ≤ longestPath ∧
          fs.tree.walk [] (fs.workingDirectory.join p).names = .ok place := by
  unfold locate
  split
  next h => simp [h]
  next h =>
    split
    next hlong =>
      have := Nat.not_le.mpr hlong
      simp [this]
    next hlong =>
      have := Nat.not_lt.mp hlong
      rw [Bool.not_eq_true] at h
      split
      next hwalk => simp [h, this, hwalk]
      next hwalk => simp [hwalk]

theorem readBytes_eq_ok_iff {bytes : List UInt8}
    : fs.readBytes p = .ok bytes ↔
        ∃ place, fs.locate p = .ok place ∧ fs.tree.entryAt place = some (.file bytes) := by
  constructor
  . intro h
    obtain ⟨place, hplace, h⟩ := exists_of_bind_eq_ok h
    refine ⟨place, hplace, ?_⟩
    split at h
    next hentry =>
      cases h
      exact hentry
    next => cases h
    next => cases h
  . intro ⟨place, hplace, hentry⟩
    simp [readBytes, hplace, hentry, bind, Except.bind, pure, Except.pure]

theorem locate_parent {bytes : List UInt8} (hp : p.isAbsolute = true) (h : fs.readBytes p = .ok bytes)
    : ∃ above, fs.locate p.parent = .ok above ∧ fs.tree.entryAt above = some .directory := by
  obtain ⟨place, hplace, hentry⟩ := readBytes_eq_ok_iff.mp h
  obtain ⟨hnull, hlength, hwalk⟩ := locate_eq_ok_iff.mp hplace
  have hjoin : ∀ q : Path, q.isAbsolute = true → fs.workingDirectory.join q = q := by
    intro q hq
    exact if_pos hq
  have hparent : p.parent.isAbsolute = true := hp
  rw [hjoin p hp] at hwalk
  rw [toText_of_isAbsolute hp, Utf8.length_encode_append] at hlength
  cases List.eq_nil_or_concat p.names with
  | inl hnames =>
    rw [hnames] at hwalk
    cases hwalk
    simp [FileTree.entryAt] at hentry
  | inr hnames =>
    obtain ⟨before, name, hnames⟩ := hnames
    rw [List.concat_eq_append] at hnames
    have hbefore : p.parent.names = before := by
      unfold Path.parent
      rw [hnames]
      exact List.dropLast_concat
    rw [hnames, FileTree.walk_append] at hwalk
    cases habove : fs.tree.walk [] before with
    | error fault => simp [habove, Except.bind] at hwalk
    | ok above =>
      rw [habove] at hwalk
      refine ⟨above, locate_eq_ok_iff.mpr ⟨?_, ?_, ?_⟩, FileTree.entryAt_of_walk_cons hwalk⟩
      . rw [Path.isImpossible, hnames, List.any_append, Bool.or_eq_false_iff] at hnull
        rw [Path.isImpossible, hbefore]
        exact hnull.1
      . obtain ⟨tail, htail⟩ := exists_intercalate_concat ['/'] before name
        rw [hnames, htail, Utf8.length_encode_append] at hlength
        rw [toText_of_isAbsolute hparent, Utf8.length_encode_append, hbefore]
        have hroot : p.parent.root = p.root := rfl
        rw [hroot]
        omega
      . rw [hjoin p.parent hparent, hbefore]
        exact habove

theorem makeDirectories_of_directory (h : fs.locate p = .ok place)
    (hentry : fs.tree.entryAt place = some .directory) : fs.makeDirectories p = .ok fs := by
  have hexists : fs.makeDirectory p = .error (.system .exists p.toText) := by
    simp [makeDirectory, h, hentry, bind, Except.bind, throw, throwThe, MonadExceptOf.throw]
  have hnew : fs.makeDirectoryIfNew p = .ok fs := by
    simp [makeDirectoryIfNew, hexists, find?, h, hentry, bind, Except.bind, pure, Except.pure]
  unfold makeDirectories
  cases hnames : p.names.reverse with
  | nil =>
    have hhere : ({ p with names := [] } : Path) = p := by
      rw [← List.reverse_eq_nil_iff.mp hnames]
    rw [makeDirectories.go, hhere]
    exact hnew
  | cons name above =>
    have hhere : ({ p with names := (name :: above).reverse } : Path) = p := by
      rw [← hnames, List.reverse_reverse]
    rw [makeDirectories.go, hhere, hexists]
    exact hnew

theorem readBytes_of_readText {text : Text} (h : fs.readText p = .ok text)
    : ∃ bytes, fs.readBytes p = .ok bytes := by
  obtain ⟨entry, _, h⟩ := exists_of_bind_eq_ok h
  split at h
  . obtain ⟨_, hthrow, _⟩ := exists_of_bind_eq_ok h
    cases hthrow
  . obtain ⟨bytes, hbytes, _⟩ := exists_of_bind_eq_ok h
    exact ⟨bytes, hbytes⟩

structure Overwritten (before after : FileSystem) (p : Path) (bytes : List UInt8) : Prop where
  file : ∃ place old, before.locate p = .ok place ∧ before.tree.get? place = some (.file old) ∧
    after.tree.get? place = some (.file bytes) ∧
    ∀ other, other ≠ place → after.tree.get? other = before.tree.get? other
  workingDirectory : after.workingDirectory = before.workingDirectory

theorem overwritten_insert {bytes old : List UInt8} (hplace : fs.locate p = .ok place)
    (hentry : fs.tree.entryAt place = some (.file old))
    : Overwritten fs { fs with tree := fs.tree.insert place (.file bytes) } p bytes := by
  have hget : fs.tree.get? place = some (.file old) := by
    unfold FileTree.entryAt at hentry
    split at hentry
    next => simp at hentry
    next => exact hentry
  refine ⟨⟨place, old, hplace, hget, OrderedMap.get?_insert_self .., ?_⟩, rfl⟩
  intro other hother
  rw [OrderedMap.insert, OrderedMap.get?_alter, if_neg (by simpa using hother)]

theorem updateBytes_of_readBytes {bytes : List UInt8} (h : fs.readBytes p = .ok bytes)
    (f : List UInt8 → List UInt8)
    : ∃ after, fs.updateBytes p f = .ok after ∧ Overwritten fs after p (f bytes) := by
  obtain ⟨place, hplace, hentry⟩ := readBytes_eq_ok_iff.mp h
  refine ⟨_, ?_, overwritten_insert hplace hentry⟩
  simp [updateBytes, hplace, hentry, bind, Except.bind, pure, Except.pure]

theorem truncate_of_readBytes {bytes : List UInt8} (hp : p.isAbsolute = true)
    (h : fs.readBytes p = .ok bytes)
    : ∃ after, fs.truncate p = .ok after ∧ Overwritten fs after p [] := by
  obtain ⟨above, habove, hdirectory⟩ := locate_parent hp h
  obtain ⟨after, hupdate, hafter⟩ := updateBytes_of_readBytes h fun _ => []
  refine ⟨after, ?_, hafter⟩
  rw [truncate, makeDirectories_of_directory habove hdirectory]
  exact hupdate

end FileSystem
end Transclusion
