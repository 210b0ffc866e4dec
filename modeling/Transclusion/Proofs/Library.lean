import Transclusion.Command.Session
import Transclusion.Proofs.FileSystem.Failing

/-!
This module contains how reading fails: for reasons that lie in a file or in its path, never because
something is nested too deep (`FileSystem.steady_library`).
-/

namespace Transclusion

variable {α β : Type}

def Steady (x : Except Failure α) : Prop :=
  ∀ e, x = .error e → .recursion ∉ e.families

theorem Steady.ok (a : α) : Steady (.ok a : Except Failure α) :=
  FailsBy.ok a

theorem Steady.bind {x : Except Failure α} {f : α → Except Failure β} (hx : Steady x)
    (hf : ∀ a, Steady (f a)) : Steady (x >>= f) :=
  FailsBy.bind hx fun a _ => hf a

structure Library.Steady (library : Library) : Prop where
  read : ∀ path, Transclusion.Steady (library.read path)
  readVariables : ∀ path, Transclusion.Steady (library.readVariables path)

theorem Failure.OfFiles.recursion_not_mem {e : Failure} (h : e.OfFiles)
    : .recursion ∉ e.families := by
  cases h with
  | system fault path => cases fault <;> simp [families]
  | textFileMissing path => simp [families]
  | directoryMissing path => simp [families]
  | notDirectory path => simp [families]
  | undecodable path reason => simp [families]
  | invalidVariables fault => simp [families]

theorem Steady.of_files {x : Except Failure α} (h : FailsBy Failure.OfFiles x) : Steady x := by
  intro e he
  exact (h e he).recursion_not_mem

theorem FileSystem.steady_library [Surrogates] (fs : FileSystem) (index : SourceIndex)
    : (fs.library index).Steady where
  read path := .of_files (fs.failsBy_readText path)
  readVariables path := .of_files (fs.failsBy_readVariables path)

end Transclusion
