import Transclusion.Proofs.Preprocess

/-!
This module contains what an expansion depends on: the report names every file that it has read, so
that it is the same for any other library that has the same content in these files
(`expand_withLibrary`).
-/

namespace Transclusion

structure Library.AgreesOn (library other : Library) (r : Report) : Prop where
  read : ∀ name ∈ r.includesResolved, ∀ path, library.index.get? name = some path →
    other.read path = library.read path
  readVariables : ∀ name ∈ r.variablesFilesLoaded, ∀ path, library.index.get? name = some path →
    other.readVariables path = library.readVariables path

theorem Library.AgreesOn.of_grows {library other : Library} {r s : Report}
    (h : library.AgreesOn other s) (hgrows : r.Grows s) : library.AgreesOn other r where
  read name hname := h.read name (hgrows.includesResolved.subset hname)
  readVariables name hname := h.readVariables name (hgrows.variablesFilesLoaded.subset hname)

namespace Expansion

variable {α β ι : Type}

def Environment.withLibrary (env : Environment) (library : Library) : Environment :=
  { env with library }

def Finds (library other : Library) (outcome : Except Failure α) : Prop :=
  other.index = library.index ∨
    (∀ name path, library.index.get? name = some path → other.index.get? name = some path) ∧
      ∃ a, outcome = .ok a

theorem Finds.get? {library other : Library} {outcome : Except Failure α}
    (h : Finds library other outcome) {name : Text} {path : Path}
    (hpath : library.index.get? name = some path) : other.index.get? name = some path := by
  rcases h with hindex | ⟨hextends, _⟩
  . rw [hindex, hpath]
  . exact hextends name path hpath

theorem Finds.index_eq {library other : Library} {e : Failure}
    (h : Finds library other (.error e : Except Failure α)) : other.index = library.index := by
  rcases h with hindex | ⟨_, _, hok⟩
  . exact hindex
  . simp at hok

def Repeats (library other : Library) (p : Progress) (r s : Run α) : Prop :=
  library.AgreesOn other (r.exec p).2.report → Finds library other (r.exec p).1 → s.exec p = r.exec p

namespace Repeats

variable {library other : Library}

theorem refl (p : Progress) (r : Run α) : Repeats library other p r r := by
  intro _ _
  rfl

theorem bind {p : Progress} {r s : Run α} {f g : α → Run β} (h : Repeats library other p r s)
    (hgrows : ∀ a, (f a).Moves GrowsReport)
    (hnext : ∀ a q, r.exec p = (.ok a, q) → Repeats library other q (f a) (g a))
    : Repeats library other p (r >>= f) (s >>= g) := by
  intro hagrees hfinds
  have hrest : GrowsReport (r.exec p).2 ((r >>= f).exec p).2 :=
    Run.Moves.rest (fun p => Report.Grows.refl p.report) hgrows p
  have hfirst := h (hagrees.of_grows hrest)
  rw [Run.exec_bind] at hagrees hfinds
  rw [Run.exec_bind, Run.exec_bind]
  cases hr : r.exec p with
  | mk outcome q =>
    rw [hr] at hfirst hagrees hfinds
    cases outcome with
    | error e =>
      rw [hfirst (.inl hfinds.index_eq)]
    | ok a =>
      have hfinds' : Finds library other (.ok a : Except Failure α) := by
        rcases hfinds with hindex | ⟨hextends, _⟩
        . exact .inl hindex
        . exact .inr ⟨hextends, a, rfl⟩
      rw [hfirst hfinds']
      exact hnext a q hr hagrees hfinds

theorem mapM {l : List ι} {f g : ι → Run α} (hgrows : ∀ i, (f i).Moves GrowsReport)
    (h : ∀ i ∈ l, ∀ p, Repeats library other p (f i) (g i)) (p : Progress)
    : Repeats library other p (l.mapM f) (l.mapM g) := by
  induction l generalizing p with
  | nil => exact refl p _
  | cons i l ih =>
    rw [List.mapM_cons, List.mapM_cons]
    apply bind (h i (by simp) p)
    . intro a
      apply admits_growsReport.closed.bind
      . exact admits_growsReport.closed.mapM fun j _ => hgrows j
      . intro as
        apply admits_growsReport.closed.pure
    . intro a q _
      apply bind (ih (fun j hj => h j (by simp [hj])) q)
      . intro as
        apply admits_growsReport.closed.pure
      . intro as _ _
        apply refl

end Repeats

section Resolve

variable (library other : Library)

theorem loadVariables_repeats (name : Text) (p : Progress)
    : Repeats library other p (loadVariables library name) (loadVariables other name) := by
  intro hagrees hfinds
  unfold loadVariables at *
  cases hpath : library.index.get? name with
  | none =>
    rw [hpath] at hfinds
    dsimp only at hfinds ⊢
    rw [Run.exec_throw] at hfinds
    rw [hfinds.index_eq, hpath]
  | some path =>
    rw [hfinds.get? hpath]
    rw [hpath] at hagrees
    dsimp only at hagrees ⊢
    rw [Run.exec_bind_of_ok (exec_updateReport ..), Run.exec_ofExcept] at hagrees ⊢
    rw [Run.exec_bind_of_ok (exec_updateReport ..), Run.exec_ofExcept,
      hagrees.readVariables name (by simp [Report.recordVariablesFile]) path hpath]

theorem localScope_repeats (inherited : Scope) (ps : Parameters) (p : Progress)
    : Repeats library other p (localScope library inherited ps) (localScope other inherited ps) := by
  unfold localScope
  dsimp only
  split
  . apply Repeats.refl
  next name _ =>
    apply Repeats.bind (loadVariables_repeats library other name p)
    . intro _
      apply admits_growsReport.closed.pure
    . intro _ _ _
      apply Repeats.refl

theorem resolve_repeats (inherited : Scope) (d : Directive) (p : Progress)
    : Repeats library other p (resolve library inherited d) (resolve other inherited d) := by
  unfold resolve
  dsimp only
  split
  . apply Repeats.refl
  next name _ =>
    apply Repeats.bind (localScope_repeats library other inherited _ p)
    . intro scope
      apply admits_growsReport.closed.bind (admits_growsReport.closed.log _ _)
      intro _
      split
      . apply admits_growsReport.closed.throw
      . apply admits_growsReport.closed.bind (admits_growsReport.closed.conditionHolds d _)
        intro holds
        split
        . apply admits_growsReport.closed.pure
        . apply admits_growsReport.closed.skipped
    . intro scope q _ hagrees hfinds
      cases hpath : library.index.get? name with
      | none =>
        rw [hpath, Run.exec_bind_of_ok (exec_log ..)] at hfinds
        dsimp only at hfinds
        rw [Run.exec_throw] at hfinds
        rw [hfinds.index_eq, hpath]
      | some path => rw [hfinds.get? hpath]

end Resolve

section Expand

variable {env : Environment} {other : Library} {short long : Expander}
  (hgrows : ∀ i, (short i).Moves GrowsReport)
  (h : ∀ i p, env.library.index.get? i.name = some i.path →
    Repeats env.library other p (short i) (long i))

include hgrows h

theorem expandPiece_repeats (nested : Bool) (scope : Scope) (piece : Text × Directive) (p : Progress)
    : Repeats env.library other p (expandPiece env short nested scope piece)
        (expandPiece (env.withLibrary other) long nested scope piece) := by
  have hregions := regions_growsReport env nested
  unfold expandPiece expandDirective
  apply Repeats.bind
  . apply Repeats.bind (resolve_repeats env.library other scope piece.2 p)
    . intro target
      exact admits_growsReport.closed.expandTarget hregions hgrows piece.2 target
    . intro target q htarget
      unfold expandTarget
      split
      . apply Repeats.refl
      next i =>
        apply Repeats.bind (h i q (includes_of_resolve htarget).path)
        . intro content
          exact admits_growsReport.closed.insertContent hregions piece.2 i.name content
        . intro content s _
          exact Repeats.refl s (insertContent env nested piece.2 i.name content)
  . intro block
    apply admits_growsReport.closed.pure
  . intro block q _
    apply Repeats.refl

theorem expandWith_repeats (nested : Bool) (scope : Scope) (text : Text) (p : Progress)
    : Repeats env.library other p (expandWith env short nested scope text)
        (expandWith (env.withLibrary other) long nested scope text) := by
  unfold expandWith
  apply Repeats.bind
  . apply Repeats.mapM
    . intro piece
      exact admits_growsReport.closed.expandPiece (regions_growsReport env nested) hgrows scope piece
    . intro piece _ p
      exact expandPiece_repeats hgrows h nested scope piece p
  . intro pieces
    apply admits_growsReport.closed.pure
  . intro pieces q _
    apply Repeats.refl

-- The name has to be in the report by the time the file is read.
theorem expandFile_repeats {i : Inclusion} (hpath : env.library.index.get? i.name = some i.path)
    {p : Progress} (hname : i.name ∈ p.report.includesResolved)
    : Repeats env.library other p (expandFile env short i)
        (expandFile (env.withLibrary other) long i) := by
  unfold expandFile
  apply Repeats.bind
  . intro hagrees _
    rw [Run.exec_ofExcept] at hagrees
    have hread : substituted (env.withLibrary other) i = substituted env i := by
      unfold substituted
      rw [← hagrees.read i.name hname i.path hpath]
      rfl
    rw [hread]
  . intro text
    apply admits_growsReport.closed.bind
    . exact admits_growsReport.closed.expandWith (regions_growsReport env true) hgrows i.scope text
    . intro expanded
      apply admits_growsReport.closed.pure
  . intro text q _
    apply Repeats.bind (expandWith_repeats hgrows h true i.scope text q)
    . intro expanded
      apply admits_growsReport.closed.pure
    . intro expanded _ _
      apply Repeats.refl

end Expand

theorem content_repeats (env : Environment) (other : Library) (levels : Nat) (chain : List Text)
    {i : Inclusion} (hpath : env.library.index.get? i.name = some i.path) (p : Progress)
    : Repeats env.library other p (content env levels chain i)
        (content (env.withLibrary other) levels chain i) := by
  induction levels generalizing chain i p with
  | zero => exact Repeats.refl p (content env 0 chain i)
  | succ levels ih =>
    unfold content
    apply Repeats.bind (Repeats.refl p _)
    . intro _
      exact admits_growsReport.closed.expandFile (content_growsReport _ _ _) i
    . intro _ q hrecorded
      rw [exec_updateReport, Prod.mk.injEq] at hrecorded
      rw [← hrecorded.2]
      apply expandFile_repeats (content_growsReport _ _ _) _ hpath
      . simp [Report.recordInclude]
      . intro j q hpath
        exact ih (chain ++ [i.name]) hpath q

/-- An expansion depends on nothing but the files that its report names: it is the same for any library
that agrees on them, and a library with more names makes no difference to an expansion that
succeeds. -/
theorem expand_withLibrary {env : Environment} {other : Library} {nested : Bool} {scope : Scope}
    {text : Text} {p : Progress}
    (hagrees : env.library.AgreesOn other ((expand env nested scope text).exec p).2.report)
    (hfinds : Finds env.library other ((expand env nested scope text).exec p).1)
    : (expand (env.withLibrary other) nested scope text).exec p
        = (expand env nested scope text).exec p := by
  have hrepeats : Repeats env.library other p (expand env nested scope text)
      (expand (env.withLibrary other) nested scope text) := by
    unfold expand expanded
    apply Repeats.bind
    . apply expandWith_repeats (content_growsReport _ _ _)
      intro i q hpath
      exact content_repeats env other env.settings.levels [] hpath q
    . intro e
      apply admits_growsReport.closed.pure
    . intro e q _
      apply Repeats.refl
  exact hrepeats hagrees hfinds

open Preprocess (singleFile includingDocument includingExpanded)

def moreFiles : Library where
  index := .ofEntries [(['a'], { root := .none, names := [['a']] }),
    (['b'], { root := .none, names := [['b']] })]
  read := fun path => .ok (if path.names = [['b']] then ['x'] else ['h', 'i'])
  readVariables := fun _ => .ok ∅

theorem expand_withLibrary_moreFiles
    : (expand (singleFile.withLibrary moreFiles) false ∅ includingDocument).exec {}
          = (expand singleFile false ∅ includingDocument).exec {} ∧
        ((expand singleFile false ∅ includingDocument).exec {}).1 = .ok includingExpanded.text := by
  have hresult : ((expand singleFile false ∅ includingDocument).exec {}).1
      = .ok includingExpanded.text :=
    eq_ok_of_toOption (by decide +kernel)
  have hindex : ∀ name path, singleFile.library.index.get? name = some path →
      name = ['a'] ∧ path = { root := .none, names := [['a']] } := by
    intro name path hpath
    have hentries : singleFile.library.index.entries
        = [((['a'] : Text), ({ root := .none, names := [['a']] } : Path))] := by rfl
    unfold OrderedMap.get? at hpath
    rw [hentries, List.lookup_cons] at hpath
    split at hpath
    next hname => exact ⟨by simpa using hname, (Option.some.inj hpath).symm⟩
    next => simp at hpath
  refine ⟨?_, hresult⟩
  apply expand_withLibrary
  . refine ⟨?_, fun _ _ _ _ => rfl⟩
    intro name _ path hpath
    rw [(hindex name path hpath).2]
    rfl
  . right
    refine ⟨?_, _, hresult⟩
    intro name path hpath
    obtain ⟨rfl, rfl⟩ := hindex name path hpath
    rfl

end Expansion
end Transclusion
