import Mathlib.Data.List.Nodup
import Transclusion.FileSystem.Listing
import Transclusion.Proofs.OrderedMap
import Transclusion.Proofs.Text.Order

/-!
This module contains what the listing of a directory has, each file once in the order of the paths, and
that the index which is made of it leads every name to the least of the paths that end with it
(`sources_least`).
-/

namespace Transclusion

/-! ## The order of paths -/

theorem namesLe_iff {a b : List Text} : namesLe a b = true ↔ a ≤ b := by
  rw [← not_lt]
  induction a generalizing b with
  | nil => exact iff_of_true rfl (List.not_lt_nil b)
  | cons s a ih =>
    cases b with
    | nil => exact iff_of_false Bool.false_ne_true (not_not.mpr (List.nil_lt_cons s a))
    | cons t b =>
      rw [List.cons_lt_cons_iff, namesLe]
      split
      next h => simp [h, ih]
      next h => simp [Ne.symm h, Text.le_iff]

theorem pairwise_mergeSort (list : List (List Text))
    : (list.mergeSort namesLe).Pairwise fun a b => a ≤ b := by
  refine (List.pairwise_mergeSort ?_ ?_ list).imp namesLe_iff.mp
  . intro a b c hab hbc
    rw [namesLe_iff] at hab hbc ⊢
    exact le_trans hab hbc
  . intro a b
    rw [Bool.or_eq_true, namesLe_iff, namesLe_iff]
    exact le_total a b

theorem append_lt_append_iff {lead a b : List Text} : lead ++ a < lead ++ b ↔ a < b := by
  induction lead with
  | nil => exact Iff.rfl
  | cons name lead ih =>
    rw [List.cons_append, List.cons_append, List.cons_lt_cons_iff, ih]
    simp

/-! ## Files below a directory -/

namespace FileTree

variable {t : FileTree} {here names : List Text}

theorem mem_filesBelow_iff
    : names ∈ t.filesBelow here ↔ ∃ bytes, t.get? (here ++ names) = some (.file bytes) := by
  simp only [filesBelow, List.mem_filterMap, Prod.exists, ← OrderedMap.mem_entries_iff]
  constructor
  . rintro ⟨place, entry, hmem, hrest⟩
    cases entry with
    | file bytes =>
      rw [List.isPrefixOf?_eq_some_iff_append_eq] at hrest
      exact ⟨bytes, hrest ▸ hmem⟩
    | directory => cases hrest
  . rintro ⟨bytes, hmem⟩
    exact ⟨_, _, hmem, List.isPrefixOf?_eq_some_iff_append_eq.mpr rfl⟩

theorem nodup_filesBelow (t : FileTree) (here : List Text) : (t.filesBelow here).Nodup := by
  unfold filesBelow List.Nodup
  rw [List.pairwise_filterMap]
  have hkeys := List.pairwise_map.mp t.nodup
  refine hkeys.imp ?_
  rintro ⟨place, entry⟩ ⟨place', entry'⟩ hne names hnames names' hnames' rfl
  cases entry <;> cases entry'
  case file.file =>
    rw [List.isPrefixOf?_eq_some_iff_append_eq] at hnames hnames'
    exact hne (hnames.symm.trans hnames')
  all_goals simp at hnames hnames'

end FileTree

/-! ## The first entry under a name -/

namespace SourceIndex

variable {entries : List (Text × Path)} {name : Text} {path : Path}

theorem get?_ofEntries (entries : List (Text × Path)) (name : Text)
    : (ofEntries entries).get? name = entries.lookup name := by
  rw [ofEntries, OrderedMap.get?_foldl_insertNew, OrderedMap.get?_empty, Option.none_or]

theorem sublist_ofEntries (entries : List (Text × Path))
    : (ofEntries entries).entries.Sublist entries := by
  obtain ⟨kept, hentries, hkept⟩ := OrderedMap.exists_entries_foldl_insertNew entries ∅
  rw [ofEntries, hentries]
  exact hkept

theorem lookup_eq_some_iff_of_pairwise (h : entries.Pairwise fun a b => a.2.names < b.2.names)
    : entries.lookup name = some path
        ↔
      (name, path) ∈ entries ∧ ∀ other, (name, other) ∈ entries → path.names ≤ other.names := by
  induction entries with
  | nil => simp
  | cons entry entries ih =>
    obtain ⟨key, first⟩ := entry
    rw [List.pairwise_cons] at h
    rw [List.lookup_cons]
    by_cases hname : name = key
    . subst hname
      rw [beq_self_eq_true, Option.some.injEq]
      constructor
      . rintro rfl
        refine ⟨List.mem_cons_self, ?_⟩
        intro other hother
        rcases List.mem_cons.mp hother with heq | hother
        . cases heq
          exact le_refl _
        . exact le_of_lt (h.1 _ hother)
      . rintro ⟨hmem, hleast⟩
        rcases List.mem_cons.mp hmem with heq | hmem
        . cases heq
          rfl
        . exact absurd (h.1 _ hmem) (not_lt.mpr (hleast first List.mem_cons_self))
    . rw [beq_false_of_ne hname]
      simp [hname, ih h.2]

end SourceIndex

namespace FileSystem

variable {fs : FileSystem} {here names other : List Text} {directory : Path} {selection : Selection}

structure Eligible (fs : FileSystem) (here : List Text) (selection : Selection) (names : List Text) :
    Prop where
  ne_nil : names ≠ []
  isFile : ∃ bytes, fs.tree.entryAt (here ++ names) = some (.file bytes)
  isWithin : selection.recursive = true ∨ names.length = 1
  isShown : selection.includeHidden = true ∨ ∀ name ∈ names, name.head? ≠ some '.'

theorem admits_iff
    : selection.admits names = true
        ↔
      (selection.recursive = true ∨ names.length = 1) ∧
        (selection.includeHidden = true ∨ ∀ name ∈ names, name.head? ≠ some '.') := by
  simp [Selection.admits, isHiddenName]

def below (directory : Path) (names : List Text) : Path :=
  { directory with names := directory.names ++ names }

theorem below_lt_below_iff
    : (below directory names).names < (below directory other).names ↔ names < other :=
  append_lt_append_iff

def listed (fs : FileSystem) (here : List Text) (selection : Selection) : List (List Text) :=
  ((fs.tree.filesBelow here).filter selection.admits).mergeSort namesLe

theorem mem_listed_iff (htop : fs.tree.get? [] = none) (hhere : fs.tree.entryAt here = some .directory)
    : names ∈ fs.listed here selection ↔ Eligible fs here selection names := by
  rw [listed, List.mem_mergeSort, List.mem_filter, FileTree.mem_filesBelow_iff, admits_iff]
  constructor
  . rintro ⟨⟨bytes, hget⟩, hwithin, hshown⟩
    have hplace : here ++ names ≠ [] := by
      intro hnil
      rw [hnil, htop] at hget
      cases hget
    have hentry : fs.tree.entryAt (here ++ names) = some (.file bytes) := by
      rw [FileTree.entryAt, if_neg (by simpa using hplace), hget]
    refine ⟨?_, ⟨bytes, hentry⟩, hwithin, hshown⟩
    rintro rfl
    rw [List.append_nil, hhere] at hentry
    cases hentry
  . rintro ⟨hne, ⟨bytes, hentry⟩, hwithin, hshown⟩
    refine ⟨⟨bytes, ?_⟩, hwithin, hshown⟩
    rw [← hentry, FileTree.entryAt, if_neg]
    simp [hne]

theorem pairwise_listed (fs : FileSystem) (here : List Text) (selection : Selection)
    : (fs.listed here selection).Pairwise fun a b => a < b := by
  have hnodup : (fs.listed here selection).Nodup :=
    (List.mergeSort_perm _ _).nodup_iff.mpr ((FileTree.nodup_filesBelow fs.tree here).filter _)
  exact (pairwise_mergeSort _).imp₂ (fun _ _ hle hne => lt_of_le_of_ne hle hne) hnodup

theorem exists_locate_of_find? [Surrogates] {entry : Entry} (h : fs.find? directory = .ok (some entry))
    : ∃ here, fs.locate directory = .ok here ∧ fs.tree.entryAt here = some entry := by
  unfold find? at h
  split at h
  next here hlocate => exact ⟨here, hlocate, Except.ok.inj h⟩
  all_goals cases h

theorem name_below (hne : names ≠ []) : (below directory names).name = names.getLast hne := by
  rw [Path.name, below, List.getLast?_append_of_ne_nil _ hne, List.getLast?_eq_some_getLast hne]
  rfl

theorem listFiles_eq [Surrogates] (selection : Selection) (hfind : fs.find? directory = .ok (some .directory))
    (hlocate : fs.locate directory = .ok here)
    : fs.listFiles directory selection
        =
      .ok ((fs.listed here selection).map fun names =>
        ((below directory names).name, below directory names)) := by
  unfold listFiles ensureDirectory
  rw [hfind]
  change (do
    let place ← fs.locate directory
    _) = _
  rw [hlocate]
  rfl

structure Lists (fs : FileSystem) (directory : Path) (here : List Text) (selection : Selection)
    (files : List (Text × Path)) : Prop where
  mem_iff : ∀ name path, (name, path) ∈ files ↔ ∃ names, Eligible fs here selection names ∧
    names.getLast? = some name ∧ path = below directory names
  sorted : files.Pairwise fun a b => a.2.names < b.2.names

structure Indexes (fs : FileSystem) (directory : Path) (here : List Text) (selection : Selection)
    (index : SourceIndex) : Prop where
  mem_keys_iff : ∀ name, name ∈ index.keys ↔ ∃ names, Eligible fs here selection names ∧
    names.getLast? = some name
  get?_iff : ∀ name path, index.get? name = some path ↔
    (∃ names, Eligible fs here selection names ∧ names.getLast? = some name ∧
      path = below directory names) ∧
    ∀ other, Eligible fs here selection other → other.getLast? = some name →
      path.names ≤ (below directory other).names
  sorted : index.entries.Pairwise fun a b => a.2.names < b.2.names

theorem lists_listed (directory : Path) (selection : Selection) (htop : fs.tree.get? [] = none)
    (hhere : fs.tree.entryAt here = some .directory)
    : Lists fs directory here selection ((fs.listed here selection).map fun names =>
        ((below directory names).name, below directory names)) where
  mem_iff name path := by
    simp only [List.mem_map, mem_listed_iff htop hhere, Prod.mk.injEq]
    refine exists_congr fun names => and_congr_right fun heligible => ?_
    rw [name_below heligible.ne_nil, List.getLast?_eq_some_getLast heligible.ne_nil,
      Option.some.injEq, eq_comm (a := path)]
  sorted := by
    rw [List.pairwise_map]
    exact (pairwise_listed fs here selection).imp below_lt_below_iff.mpr

theorem Lists.indexes {files : List (Text × Path)} (h : Lists fs directory here selection files)
    : Indexes fs directory here selection (.ofEntries files) where
  mem_keys_iff name := by
    simp only [OrderedMap.mem_keys_iff, SourceIndex.get?_ofEntries]
    constructor
    . rintro ⟨path, hpath⟩
      rw [SourceIndex.lookup_eq_some_iff_of_pairwise h.sorted, h.mem_iff] at hpath
      obtain ⟨⟨names, heligible, hname, -⟩, -⟩ := hpath
      exact ⟨names, heligible, hname⟩
    . rintro ⟨names, heligible, hname⟩
      have hmem := (h.mem_iff name _).mpr ⟨names, heligible, hname, rfl⟩
      cases hlookup : files.lookup name with
      | some path => exact ⟨path, rfl⟩
      | none =>
        have hne := List.lookup_eq_none_iff.mp hlookup _ hmem
        simp at hne
  get?_iff name path := by
    rw [SourceIndex.get?_ofEntries, SourceIndex.lookup_eq_some_iff_of_pairwise h.sorted, h.mem_iff]
    refine and_congr_right fun _ => ?_
    constructor
    . intro hleast other heligible hname
      exact hleast _ ((h.mem_iff name _).mpr ⟨other, heligible, hname, rfl⟩)
    . intro hleast path hpath
      obtain ⟨other, heligible, hname, rfl⟩ := (h.mem_iff name path).mp hpath
      exact hleast other heligible hname
  sorted := h.sorted.sublist (SourceIndex.sublist_ofEntries files)

/-- The listing of a directory has every file that counts once, in the order of the paths, and in the
index that is made of it every name leads to the least path. The top of a file system is a directory
without an entry of its own. -/
theorem sources_least [Surrogates] (htop : fs.tree.get? [] = none)
    (hfind : fs.find? directory = .ok (some .directory)) (selection : Selection)
    : ∃ here files index, fs.locate directory = .ok here ∧
        fs.listFiles directory selection = .ok files ∧ Lists fs directory here selection files ∧
        fs.sources directory selection = .ok index ∧ Indexes fs directory here selection index := by
  obtain ⟨here, hlocate, hhere⟩ := exists_locate_of_find? hfind
  have hlists := lists_listed directory selection htop hhere
  have hfiles := listFiles_eq selection hfind hlocate
  refine ⟨here, _, _, hlocate, hfiles, hlists, ?_, hlists.indexes⟩
  unfold sources
  rw [hfiles]
  rfl

attribute [local instance] Surrogates.lastBlock

def sameNames : FileSystem where
  tree := {
    entries := [([['d']], .directory), ([['d'], ['f']], .file []), ([['d'], ['a']], .directory),
      ([['d'], ['a'], ['f']], .file [])]
    nodup := by decide }

theorem sources_least_sameNames
    : let directory : Path := { root := .slash, names := [['d']] }
      let selection : Selection := { recursive := true }
      sameNames.tree.get? [] = none ∧ sameNames.find? directory = .ok (some .directory) ∧
        ∃ here files index, sameNames.locate directory = .ok here ∧
          sameNames.listFiles directory selection = .ok files ∧
          Lists sameNames directory here selection files ∧
          sameNames.sources directory selection = .ok index ∧
          Indexes sameNames directory here selection index :=
  ⟨rfl, rfl, sources_least rfl rfl _⟩

end FileSystem
end Transclusion
