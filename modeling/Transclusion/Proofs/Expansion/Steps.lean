import Transclusion.Proofs.Expansion.Run

/-!
This module contains how a property of steps comes from the single steps to the whole of an expansion:
one that sequences keep and that the steps of `resolve` have (`Closed`) holds of the expansion of any
included file.
-/

namespace Transclusion
namespace Expansion

structure Closed (P : (α : Type) → Run α → Prop) : Prop where
  pure : ∀ {α : Type} (a : α), P α (pure a)
  throw : ∀ {α : Type} (e : Failure), P α (throw e)
  bind : ∀ {α β : Type} {r : Run α} {f : α → Run β}, P α r → (∀ a, P β (f a)) → P β (r >>= f)
  log : ∀ level message, P Unit (log level message)
  skip : ∀ directive reason, P Unit (updateReport (·.recordSkip directive reason))
  variablesFile : ∀ name, P Unit (updateReport (·.recordVariablesFile name))
  warning : ∀ message, P Unit (updateReport (·.addWarning message))

def Regions (P : (α : Type) → Run α → Prop) (env : Environment) (nested : Bool) : Prop :=
  nested = false → P Text (drawId env.ids) ∧
    P Unit (updateReport fun r => { r with regionsInserted := r.regionsInserted + 1 })

namespace Closed

variable {P : (α : Type) → Run α → Prop} (h : Closed P)

include h

theorem ofExcept {α : Type} (x : Except Failure α) : P α (ofExcept x) := by
  cases x with
  | error e => exact h.throw e
  | ok a => exact h.pure a

theorem mapM {α ι : Type} {l : List ι} {f : ι → Run α} (hf : ∀ i ∈ l, P α (f i))
    : P (List α) (l.mapM f) := by
  induction l with
  | nil => exact h.pure []
  | cons i l ih =>
    rw [List.mapM_cons]
    apply h.bind (hf i (by simp))
    intro a
    apply h.bind (ih fun j hj => hf j (by simp [hj]))
    intro as
    apply h.pure

theorem skipped {α : Type} (level : Int) (message directive reason : Text) (a : α)
    : P α do
        Expansion.log level message
        updateReport (·.recordSkip directive reason)
        return a := by
  apply h.bind (h.log level message)
  intro _
  apply h.bind (h.skip directive reason)
  intro _
  exact h.pure a

theorem loadVariables (library : Library) (name : Text) : P Scope (loadVariables library name) := by
  unfold Expansion.loadVariables
  split
  . apply h.throw
  . apply h.bind (h.variablesFile name)
    intro _
    apply h.ofExcept

theorem localScope (library : Library) (inherited : Scope) (ps : Parameters)
    : P Scope (localScope library inherited ps) := by
  unfold Expansion.localScope
  dsimp only
  split
  . apply h.pure
  next name _ =>
    apply h.bind (h.loadVariables library name)
    intro _
    apply h.pure

theorem conditionHolds (d : Directive) (condition : Option Text)
    : P Bool (conditionHolds d condition) := by
  unfold Expansion.conditionHolds
  split
  . apply h.pure
  . split
    . apply h.pure
    . apply h.bind (h.warning _)
      intro _
      apply h.pure

theorem resolve (library : Library) (inherited : Scope) (d : Directive)
    : P (Option Inclusion) (resolve library inherited d) := by
  unfold Expansion.resolve
  dsimp only
  split
  . apply h.skipped
  . apply h.bind (h.localScope library inherited _)
    intro scope
    apply h.bind (h.log _ _)
    intro _
    split
    . apply h.throw
    . apply h.bind (h.conditionHolds d _)
      intro holds
      split
      . apply h.pure
      . apply h.skipped

section Expanded

variable {env : Environment} {expander : Expander} {nested : Bool}

theorem insertContent (hregions : Regions P env nested) (d : Directive) (name content : Text)
    : P Block (insertContent env nested d name content) := by
  unfold Expansion.insertContent
  dsimp only
  split
  . apply h.pure
  next hnested =>
    obtain ⟨hdraw, hinsert⟩ := hregions (by simpa using hnested)
    apply h.bind hdraw
    intro id
    apply h.bind hinsert
    intro _
    apply h.pure

theorem expandTarget (hregions : Regions P env nested) (hexpander : ∀ i, P Text (expander i))
    (d : Directive) (target : Option Inclusion)
    : P Block (expandTarget env expander nested d target) := by
  unfold Expansion.expandTarget
  split
  . apply h.pure
  . apply h.bind (hexpander _)
    intro content
    apply h.insertContent hregions

theorem expandPiece (hregions : Regions P env nested) (hexpander : ∀ i, P Text (expander i))
    (scope : Scope) (piece : Text × Directive)
    : P Piece (expandPiece env expander nested scope piece) := by
  unfold Expansion.expandPiece expandDirective
  apply h.bind
  . apply h.bind (h.resolve env.library scope piece.2)
    intro target
    exact h.expandTarget hregions hexpander piece.2 target
  . intro block
    apply h.pure

theorem expandWith (hregions : Regions P env nested) (hexpander : ∀ i, P Text (expander i))
    (scope : Scope) (text : Text)
    : P Expanded (expandWith env expander nested scope text) := by
  unfold Expansion.expandWith
  apply h.bind
  . apply h.mapM
    intro piece _
    exact h.expandPiece hregions hexpander scope piece
  . intro pieces
    apply h.pure

theorem expandFile (hexpander : ∀ i, P Text (expander i)) (i : Inclusion)
    : P Text (expandFile env expander i) := by
  unfold Expansion.expandFile
  apply h.bind (h.ofExcept _)
  intro text
  apply h.bind (h.expandWith (by simp [Regions]) hexpander i.scope text)
  intro expanded
  apply h.pure

end Expanded

theorem content {deepest : Nat}
    (hinclude : ∀ name depth, depth ≤ deepest → P Unit (updateReport (·.recordInclude name depth)))
    (env : Environment) {levels : Nat} {chain : List Text} (hdeepest : chain.length + levels ≤ deepest)
    (i : Inclusion) : P Text (content env levels chain i) := by
  induction levels generalizing chain i with
  | zero =>
    unfold Expansion.content
    apply h.throw
  | succ levels ih =>
    unfold Expansion.content
    apply h.bind (hinclude i.name (chain.length + 1) (by omega))
    intro _
    apply h.expandFile
    apply ih
    rw [List.length_append, List.length_singleton]
    omega

theorem expanded {deepest : Nat} {env : Environment} {nested : Bool}
    (hregions : Regions P env nested)
    (hinclude : ∀ name depth, depth ≤ deepest → P Unit (updateReport (·.recordInclude name depth)))
    (hdeepest : env.settings.levels ≤ deepest) (scope : Scope) (text : Text)
    : P Expanded (expanded env nested scope text) := by
  unfold Expansion.expanded
  apply h.expandWith hregions
  apply h.content hinclude
  simpa using hdeepest

end Closed
end Expansion
end Transclusion
