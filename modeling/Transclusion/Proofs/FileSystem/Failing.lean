import Transclusion.FileSystem.Data
import Transclusion.FileSystem.Listing

/-!
This module contains how work on files fails: for reasons that commands report (`Failure.OfFiles`). Only a
path that no file can have fails otherwise, and not even that one where it is read or listed.
-/

namespace Transclusion

inductive Failure.OfFiles : Failure → Prop
  | system (fault : SystemFault) (path : Text) : OfFiles (.system fault path)
  | textFileMissing (path : Text) : OfFiles (.textFileMissing path)
  | directoryMissing (path : Text) : OfFiles (.directoryMissing path)
  | notDirectory (path : Text) : OfFiles (.notDirectory path)
  | undecodable (path reason : Text) : OfFiles (.undecodable path reason)
  | invalidVariables (fault : VariablesFault) : OfFiles (.invalidVariables fault)

theorem Failure.OfFiles.isHandled {e : Failure} (h : e.OfFiles) : e.isHandled = true := by
  cases h with
  | system fault path => cases fault <;> rfl
  | textFileMissing path => rfl
  | directoryMissing path => rfl
  | notDirectory path => rfl
  | undecodable path reason => rfl
  | invalidVariables fault => rfl

theorem Path.impossibility_cases [Surrogates] (text : Text)
    : impossibility text = .nullInPath ∨ ∃ message, impossibility text = .unencodable message := by
  unfold impossibility
  split
  . exact .inl rfl
  . exact .inr ⟨_, rfl⟩

variable {α β : Type} {P : Failure → Prop}

def FailsBy (P : Failure → Prop) (x : Except Failure α) : Prop :=
  ∀ e, x = .error e → P e

theorem FailsBy.ok (a : α) : FailsBy P (.ok a) := by
  intro e h
  simp at h

theorem FailsBy.error {e : Failure} (h : P e) : FailsBy P (.error e : Except Failure α) := by
  intro e' he
  cases he
  exact h

theorem FailsBy.bind {x : Except Failure α} {f : α → Except Failure β} (hx : FailsBy P x)
    (hf : ∀ a, x = .ok a → FailsBy P (f a)) : FailsBy P (x >>= f) := by
  cases x with
  | error e => exact .error (hx e rfl)
  | ok a => exact hf a rfl

theorem VariablesFile.failsBy_validate (source : Text) (value : Value)
    : FailsBy Failure.OfFiles (validate source value) := by
  unfold validate
  split
  . split
    . exact .ok _
    . exact .error (.invalidVariables _)
  . exact .error (.invalidVariables _)

theorem VariablesFile.failsBy_parse [Surrogates] (path text : Text) : FailsBy Failure.OfFiles (parse path text) := by
  unfold parse
  split
  . exact failsBy_validate path _
  . exact .error (.invalidVariables _)

namespace FileSystem

variable [Surrogates] {fs : FileSystem} {p : Path}

theorem failsBy_locate (fs : FileSystem) (h : p.isImpossible = false)
    : FailsBy Failure.OfFiles (fs.locate p) := by
  unfold locate
  rw [h, if_neg (by decide)]
  split
  . exact .error (.system _ _)
  . split
    . exact .ok _
    . exact .error (.system _ _)

/-! ## Reading -/

theorem find?_of_isImpossible (h : p.isImpossible = true) : fs.find? p = .ok none := by
  unfold find? locate
  rw [if_pos h]
  rcases Path.impossibility_cases p.toText with hnull | ⟨message, hmessage⟩
  . rw [hnull]
  . rw [hmessage]

theorem isImpossible_of_find? {entry : Entry} (h : fs.find? p = .ok (some entry)) : p.isImpossible = false := by
  rw [Bool.eq_false_iff]
  intro hnull
  rw [find?_of_isImpossible hnull] at h
  simp at h

theorem failsBy_find? (fs : FileSystem) (p : Path) : FailsBy Failure.OfFiles (fs.find? p) := by
  cases hnull : p.isImpossible with
  | true =>
    rw [find?_of_isImpossible hnull]
    exact .ok _
  | false =>
    have hlocate := failsBy_locate fs hnull
    unfold find?
    split
    next => exact .ok _
    next => exact .ok _
    next => exact .ok _
    next => exact .ok _
    next => exact .ok _
    next failure _ _ _ _ h => exact .error (hlocate failure h)

theorem failsBy_readBytes (h : p.isImpossible = false) : FailsBy Failure.OfFiles (fs.readBytes p) := by
  unfold readBytes
  apply FailsBy.bind (failsBy_locate fs h)
  intro names _
  split
  . exact .ok _
  . exact .error (.system _ _)
  . exact .error (.system _ _)

theorem failsBy_readText (fs : FileSystem) (p : Path) : FailsBy Failure.OfFiles (fs.readText p) := by
  unfold readText
  apply FailsBy.bind (failsBy_find? fs p)
  intro entry hentry
  split
  . exact .error (.textFileMissing _)
  next hsome =>
    rw [Bool.not_eq_true, Option.isNone_eq_false_iff, Option.isSome_iff_exists] at hsome
    obtain ⟨_, rfl⟩ := hsome
    apply FailsBy.bind (failsBy_readBytes (isImpossible_of_find? hentry))
    intro bytes _
    split
    . exact .ok _
    . exact .error (.undecodable _ _)

theorem isImpossible_of_readText {text : Text} (h : fs.readText p = .ok text) : p.isImpossible = false := by
  unfold readText at h
  cases hfind : fs.find? p with
  | error e => simp [hfind, bind, Except.bind] at h
  | ok entry =>
    cases entry with
    | none => simp [hfind, bind, Except.bind, throw, throwThe, MonadExceptOf.throw] at h
    | some entry => exact isImpossible_of_find? hfind

theorem failsBy_readVariables (fs : FileSystem) (p : Path)
    : FailsBy Failure.OfFiles (fs.readVariables p) := by
  apply FailsBy.bind (failsBy_readText fs p)
  intro text _
  exact VariablesFile.failsBy_parse _ text

theorem failsBy_listFiles (fs : FileSystem) (p : Path) (selection : Selection)
    : FailsBy Failure.OfFiles (fs.listFiles p selection) := by
  unfold listFiles ensureDirectory
  cases hfind : fs.find? p with
  | error e => exact .error (failsBy_find? fs p e hfind)
  | ok entry =>
    cases entry with
    | none => exact .error (.directoryMissing _)
    | some entry =>
      cases entry with
      | file bytes => exact .error (.notDirectory _)
      | directory =>
        apply FailsBy.bind (failsBy_locate fs (isImpossible_of_find? hfind))
        intro place _
        exact .ok _

theorem failsBy_sources (fs : FileSystem) (p : Path) (selection : Selection)
    : FailsBy Failure.OfFiles (fs.sources p selection) := by
  apply FailsBy.bind (failsBy_listFiles fs p selection)
  intro files _
  exact .ok _

/-! ## Writing -/

theorem failsBy_makeDirectory (fs : FileSystem) (h : p.isImpossible = false)
    : FailsBy Failure.OfFiles (fs.makeDirectory p) := by
  unfold makeDirectory
  apply FailsBy.bind (failsBy_locate fs h)
  intro place _
  split
  . exact .error (.system _ _)
  . exact .ok _

theorem failsBy_makeDirectoryIfNew (h : p.isImpossible = false)
    : FailsBy Failure.OfFiles (fs.makeDirectoryIfNew p) := by
  have hmake := failsBy_makeDirectory fs h
  unfold makeDirectoryIfNew
  split
  . apply FailsBy.bind (failsBy_find? fs p)
    intro entry _
    split
    . exact .ok _
    . exact .error (.system _ _)
  . exact hmake

theorem failsBy_makeDirectories (h : p.isImpossible = false)
    : FailsBy Failure.OfFiles (fs.makeDirectories p) := by
  have hgo : ∀ reversed : List Text, reversed.any (·.any Path.isImpossibleChar) = false →
      FailsBy Failure.OfFiles (makeDirectories.go fs p reversed) := by
    intro reversed hnull
    induction reversed with
    | nil => exact failsBy_makeDirectoryIfNew rfl
    | cons name above ih =>
      have hhere : ({ p with names := (name :: above).reverse } : Path).isImpossible = false := by
        rw [Path.isImpossible, List.any_reverse]
        exact hnull
      rw [List.any_cons, Bool.or_eq_false_iff] at hnull
      unfold makeDirectories.go
      dsimp only
      split
      . apply FailsBy.bind (ih hnull.2)
        intro _ _
        exact failsBy_makeDirectoryIfNew hhere
      . exact failsBy_makeDirectoryIfNew hhere
  apply hgo
  rw [List.any_reverse]
  exact h

theorem failsBy_updateBytes (fs : FileSystem) (h : p.isImpossible = false)
    (f : List UInt8 → List UInt8) : FailsBy Failure.OfFiles (fs.updateBytes p f) := by
  unfold updateBytes
  apply FailsBy.bind (failsBy_locate fs h)
  intro place _
  split
  . exact .error (.system _ _)
  . exact .ok _
  . exact .ok _

theorem failsBy_truncate (fs : FileSystem) (h : p.isImpossible = false)
    : FailsBy Failure.OfFiles (fs.truncate p) := by
  have hparent : p.parent.isImpossible = false := by
    rw [Path.isImpossible, List.any_eq_false] at h ⊢
    intro name hname
    exact h name (List.dropLast_subset _ hname)
  apply FailsBy.bind (failsBy_makeDirectories hparent)
  intro made _
  exact failsBy_updateBytes made h _

end FileSystem
end Transclusion
