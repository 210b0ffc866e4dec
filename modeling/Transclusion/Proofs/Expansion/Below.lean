import Transclusion.Proofs.Expansion.Replay
import Transclusion.Proofs.Expansion.Resolve
import Transclusion.Proofs.Library

/-!
This module contains what becomes of a file when it is included: its content is expanded as it is on
its own with one level less (`content_answers`), and where that comes to an end because of the limit,
the name of the file is put in front of the chain (`Failure.below`).
-/

namespace Transclusion

def Failure.below (name : Text) (maxDepth : Int) : Failure → Failure
  | .circularInclude chain _ => .circularInclude (name :: chain) maxDepth
  | e => e

theorem Failure.below_eq_self {e : Failure} (h : .recursion ∉ e.families) (name : Text)
    (maxDepth : Int) : e.below name maxDepth = e := by
  cases e with
  | circularInclude chain limit => simp [families] at h
  | _ => rfl

namespace Expansion

def Environment.below (env : Environment) (room : Nat) : Environment :=
  { env with
    settings := { env.settings with maxDepth := env.settings.maxDepth - 1, nestingLimit := room } }

/-- The failure of a file is told of with its name in front. Where not both runs have the same levels
left, nothing is said. -/
def Lifted (exact : Prop) (name : Text) (maxDepth : Int) (e : Failure) (inner : Option Failure) : Prop :=
  exact → ∃ e', inner = some e' ∧ e = e'.below name maxDepth

section Lifted

variable {exact : Prop} {name : Text} {maxDepth : Int} {e : Failure}

theorem Lifted.of_ended (e' : Failure) (h : Lifted exact name maxDepth e none)
    : Lifted exact name maxDepth e (some e') := by
  intro hexact
  obtain ⟨_, hnone, _⟩ := h hexact
  simp at hnone

theorem Lifted.self (h : exact → .recursion ∉ e.families)
    : Lifted exact name maxDepth e (some e) := by
  intro hexact
  exact ⟨e, rfl, (Failure.below_eq_self (h hexact) name maxDepth).symm⟩

theorem Run.Answers.lifted {α : Type} {x y : Except Failure α × Progress}
    (h : Run.Answers Unrelated (Lifted True name maxDepth) Eq x y)
    : x.1 = y.1.mapError (·.below name maxDepth) := by
  cases h with
  | ok hsame _ => exact congrArg Except.ok hsame
  | error hlifted =>
    obtain ⟨e', hinner, he⟩ := hlifted trivial
    obtain rfl := Option.some.inj hinner
    exact congrArg Except.error he
  | ended hlifted =>
    obtain ⟨_, hnone, _⟩ := hlifted trivial
    simp at hnone

end Lifted

theorem steady_substituted {env : Environment} (h : env.library.Steady) (i : Inclusion)
    : Steady (substituted env i) := by
  apply Steady.bind (h.read i.path)
  intro content
  exact .ok _

theorem steady_target {library : Library} (h : library.Steady) (inherited : Scope) (d : Directive)
    : Steady (target library inherited d) := by
  intro e he
  rcases error_of_target he with ⟨name, role, context, rfl⟩ | ⟨path, hpath⟩
  . simp [Failure.families]
  . exact h.readVariables path e hpath

section Follows

variable {env : Environment} {exact : Prop} {name : Text} {maxDepth : Int} {short long : Expander}
  (hsteady : exact → env.library.Steady)
  (h : ∀ i, Run.Follows Unrelated (Lifted exact name maxDepth) Eq (short i) (long i))

include hsteady h

theorem expandPiece_follows (scope : Scope) (piece : Text × Directive)
    : Run.Follows Unrelated (Lifted exact name maxDepth) Eq
        (expandPiece env short true scope piece) (expandPiece env long true scope piece) := by
  have hresolve : Run.Follows Unrelated (Lifted exact name maxDepth) Eq
      (resolve env.library scope piece.2) (resolve env.library scope piece.2) := by
    apply (blind_unrelated.closed.resolve env.library scope piece.2).follows
    intro p e he
    rw [resolve_outcome] at he
    exact .self fun hexact => steady_target (hsteady hexact) scope piece.2 e he
  unfold expandPiece expandDirective
  apply Run.Follows.bind (fun _ => Lifted.of_ended) (V := Eq)
  . apply Run.Follows.bind (fun _ => Lifted.of_ended) hresolve
    rintro found _ rfl
    unfold expandTarget
    split
    . exact .pure rfl
    . apply Run.Follows.bind (fun _ => Lifted.of_ended) (h _)
      rintro content _ rfl
      exact .pure rfl
  . rintro block _ rfl
    exact .pure rfl

theorem expandWith_follows (scope : Scope) (text : Text)
    : Run.Follows Unrelated (Lifted exact name maxDepth) Eq
        (expandWith env short true scope text) (expandWith env long true scope text) := by
  unfold expandWith
  apply Run.Follows.bind (fun _ => Lifted.of_ended) (V := List.Forall₂ Eq)
  . apply Run.Follows.mapM fun _ => Lifted.of_ended
    rw [List.forall₂_same]
    intro piece _
    exact expandPiece_follows hsteady h scope piece
  . intro pieces pieces' hpieces
    rw [List.forall₂_eq_eq_eq] at hpieces
    exact .pure (by rw [hpieces])

theorem expandFile_follows (i : Inclusion)
    : Run.Follows Unrelated (Lifted exact name maxDepth) Eq
        (expandFile env short i) (expandFile env long i) := by
  unfold expandFile
  apply Run.Follows.bind (fun _ => Lifted.of_ended) (V := Eq)
  . intro p q hpq
    rw [Run.exec_ofExcept, Run.exec_ofExcept]
    cases hfile : substituted env i with
    | error e => exact .error (.self fun hexact => steady_substituted (hsteady hexact) i e hfile)
    | ok file => exact .ok rfl hpq
  . rintro file _ rfl
    apply Run.Follows.bind (fun _ => Lifted.of_ended) (expandWith_follows hsteady h i.scope file)
    rintro expanded _ rfl
    exact .pure rfl

end Follows

section Below

variable {env : Environment} (room : Nat) {exact : Prop} (hsteady : exact → env.library.Steady)

include hsteady

-- Below the name the chain is the same, and both limits are reached at once if the levels are the same.
theorem content_follows (name : Text) {levels levels' : Nat} (hle : levels ≤ levels')
    (hlevels : exact → levels = levels') (chain : List Text) (i : Inclusion)
    : Run.Follows Unrelated (Lifted exact name env.settings.maxDepth) Eq
        (content env levels (name :: chain) i) (content (env.below room) levels' chain i) := by
  induction levels generalizing levels' chain i with
  | zero =>
    intro p q _
    by_cases hexact : exact
    . obtain rfl : 0 = levels' := hlevels hexact
      apply Run.Answers.error
      intro _
      exact ⟨_, rfl, rfl⟩
    . apply Run.Answers.of_error
      intro _ h
      exact absurd h hexact
  | succ levels ih =>
    obtain ⟨levels', rfl⟩ := Nat.exists_eq_succ_of_ne_zero (Nat.ne_zero_of_lt hle)
    unfold content
    apply Run.Follows.bind (fun _ => Lifted.of_ended) (V := Eq)
    . intro p q hpq
      exact .ok rfl hpq
    . intro _ _ _
      apply expandFile_follows hsteady
      intro j
      exact ih (by omega) (fun hexact => by have := hlevels hexact; omega) (chain ++ [i.name]) j

theorem content_answers {i : Inclusion} {file : Text} (hfile : substituted env i = .ok file)
    {levels : Nat} (hle : levels ≤ (env.below room).settings.levels)
    (hlevels : exact → levels = (env.below room).settings.levels) (p q : Progress)
    : Run.Answers Unrelated (Lifted exact i.name env.settings.maxDepth) Eq
        ((content env (levels + 1) [] i).exec p)
        ((expand (env.below room) true i.scope file).exec q) := by
  have hexpander := content_follows room hsteady i.name hle hlevels []
  have hexpand : Run.Follows Unrelated (Lifted exact i.name env.settings.maxDepth) Eq
      (do return (← expandWith env (content env levels [i.name]) true i.scope file).text)
      (expand (env.below room) true i.scope file) := by
    apply Run.Follows.bind (fun _ => Lifted.of_ended)
      (expandWith_follows hsteady hexpander i.scope file)
    rintro expanded _ rfl
    exact .pure rfl
  unfold content
  rw [Run.exec_bind_of_ok (exec_updateReport ..)]
  unfold expandFile
  rw [Run.exec_bind, Run.exec_ofExcept, hfile]
  exact hexpand _ q trivial

end Below

end Expansion
end Transclusion
