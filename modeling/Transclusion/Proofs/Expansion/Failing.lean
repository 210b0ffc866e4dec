import Transclusion.Preprocess
import Transclusion.Proofs.Expansion.Resolve
import Transclusion.Proofs.FileSystem.Failing

/-!
This module contains the ways in which an expansion fails: a directive names what is not there, files
include each other for too long, or one of the files cannot be read (`Expansion.Fault`).
-/

namespace Transclusion
namespace Expansion

inductive Fault (env : Environment) : Failure → Prop
  | notFound (name role : Text) (context : Context) : Fault env (.includeNotFound name role context)
  | circular (chain : List Text) : Fault env (.circularInclude chain env.settings.maxDepth)
  | file {path : Path} {e : Failure} : env.library.read path = .error e → Fault env e
  | variablesFile {path : Path} {e : Failure} : env.library.readVariables path = .error e → Fault env e

namespace Run

variable {α β ι : Type} {P : Failure → Prop}

def FailsBy (P : Failure → Prop) (r : Run α) : Prop :=
  ∀ p, Transclusion.FailsBy P (r.exec p).1

theorem FailsBy.pure (a : α) : FailsBy P (Pure.pure a) := by
  intro p
  exact .ok a

theorem FailsBy.ofExcept {x : Except Failure α} (h : Transclusion.FailsBy P x)
    : FailsBy P (ofExcept x) := by
  intro p
  rw [exec_ofExcept]
  exact h

theorem FailsBy.bind {r : Run α} {f : α → Run β} (hr : FailsBy P r) (hf : ∀ a, FailsBy P (f a))
    : FailsBy P (r >>= f) := by
  intro p
  have hp := hr p
  rw [exec_bind]
  cases h : r.exec p with
  | mk outcome q =>
    rw [h] at hp
    cases outcome with
    | error e => exact .error (hp e rfl)
    | ok a => exact hf a q

theorem FailsBy.mapM {l : List ι} {f : ι → Run α} (hf : ∀ i, FailsBy P (f i))
    : FailsBy P (l.mapM f) := by
  induction l with
  | nil => exact pure []
  | cons i l ih =>
    rw [List.mapM_cons]
    apply bind (hf i)
    intro a
    apply bind ih
    intro as
    exact pure _

theorem FailsBy.updateReport (f : Report → Report) : FailsBy P (updateReport f) := by
  intro p
  exact .ok ()

end Run

variable {env : Environment}

theorem fault_of_target {inherited : Scope} {d : Directive} {e : Failure}
    (h : target env.library inherited d = .error e) : Fault env e := by
  rcases error_of_target h with ⟨name, role, context, rfl⟩ | ⟨path, hpath⟩
  . exact .notFound name role context
  . exact .variablesFile hpath

theorem failsBy_insertContent (nested : Bool) (d : Directive) (name content : Text)
    : Run.FailsBy (Fault env) (insertContent env nested d name content) := by
  intro p
  cases nested <;> exact .ok _

section Expander

variable {expander : Expander} (hexpander : ∀ i, Run.FailsBy (Fault env) (expander i))

include hexpander

theorem failsBy_expandDirective (nested : Bool) (scope : Scope) (d : Directive)
    : Run.FailsBy (Fault env) (expandDirective env expander nested scope d) := by
  apply Run.FailsBy.bind
  . intro p
    rw [resolve_outcome]
    exact fun e => fault_of_target
  . intro found
    cases found with
    | none => exact Run.FailsBy.pure _
    | some inclusion =>
      apply Run.FailsBy.bind (hexpander inclusion)
      intro content
      apply failsBy_insertContent

theorem failsBy_expandWith (nested : Bool) (scope : Scope) (text : Text)
    : Run.FailsBy (Fault env) (expandWith env expander nested scope text) := by
  apply Run.FailsBy.bind
  . apply Run.FailsBy.mapM
    intro piece
    apply Run.FailsBy.bind (failsBy_expandDirective hexpander nested scope piece.2)
    intro block
    exact Run.FailsBy.pure _
  . intro pieces
    exact Run.FailsBy.pure _

theorem failsBy_expandFile (i : Inclusion) : Run.FailsBy (Fault env) (expandFile env expander i) := by
  apply Run.FailsBy.bind
  . apply Run.FailsBy.ofExcept
    apply FailsBy.bind fun e he => Fault.file he
    intro content _
    exact .ok _
  . intro text
    apply Run.FailsBy.bind (failsBy_expandWith hexpander true i.scope text)
    intro expanded
    exact Run.FailsBy.pure _

end Expander

theorem failsBy_content (levels : Nat) (chain : List Text) (i : Inclusion)
    : Run.FailsBy (Fault env) (content env levels chain i) := by
  induction levels generalizing chain i with
  | zero =>
    intro p
    exact .error (.circular _)
  | succ levels ih =>
    unfold content
    refine Run.FailsBy.bind (Run.FailsBy.updateReport _) ?_
    intro _
    exact failsBy_expandFile (ih _) i

theorem failsBy_expanded (nested : Bool) (scope : Scope) (text : Text)
    : Run.FailsBy (Fault env) (expanded env nested scope text) :=
  failsBy_expandWith (failsBy_content env.settings.levels []) nested scope text

theorem failsBy_process (globals : Scope) (text : Text)
    : Run.FailsBy (Fault env) (Preprocess.process env globals text) := by
  apply Run.FailsBy.bind
  . apply Run.FailsBy.bind
    . intro p
      exact .ok _
    . intro cleaned
      apply Run.FailsBy.bind (failsBy_expanded false globals cleaned)
      intro result p
      exact .ok _
  . intro result
    exact Run.FailsBy.pure _

end Expansion
end Transclusion
