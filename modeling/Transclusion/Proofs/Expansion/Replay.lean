import Transclusion.Proofs.Expansion.Steps

/-!
This module contains what an expansion does not look at: it comes to the same whatever has been
reported and logged before (`Blind`), and other ids only change the ids of its regions
(`expanded_alike`).
-/

namespace Transclusion
namespace Expansion

structure Blind (I : Progress → Progress → Prop) : Prop where
  report : ∀ p q (f : Report → Report), I p q →
    I { p with report := f p.report } { q with report := f q.report }
  record : ∀ p q r, I p q → I { p with log := p.log ++ [r] } { q with log := q.log ++ [r] }

theorem Blind.updateReport {I : Progress → Progress → Prop} (h : Blind I) (f : Report → Report)
    : Run.Alike I Eq (updateReport f) (updateReport f) := by
  intro p q hpq
  exact ⟨rfl, h.report p q f hpq⟩

theorem Blind.closed {I : Progress → Progress → Prop} (h : Blind I)
    : Closed fun _ r => Run.Alike I Eq r r where
  pure _ := Run.Alike.pure rfl
  throw _ _ _ hpq := ⟨rfl, hpq⟩
  bind hr hf := by
    apply Run.Alike.bind hr
    intro a b hab
    rw [← hab]
    exact hf a
  log _ _ p q hpq := ⟨rfl, h.record p q _ hpq⟩
  skip _ _ := h.updateReport _
  variablesFile _ := h.updateReport _
  warning _ := h.updateReport _

theorem Blind.content {I : Progress → Progress → Prop} (h : Blind I) (env : Environment) (levels : Nat)
    (chain : List Text) (i : Inclusion)
    : Run.Alike I Eq (content env levels chain i) (content env levels chain i) := by
  apply h.closed.content _ env (Nat.le_refl _)
  intro name depth _
  exact h.updateReport _

def Environment.withIds (env : Environment) (ids : Nat → Text) : Environment :=
  { env with ids }

inductive SameBlock : Block → Block → Prop
  | skipped : SameBlock .skipped .skipped
  | nested (body : Text) : SameBlock (.nested body) (.nested body)
  | region (indent name id id' body : Text) :
    SameBlock (.region indent name id body) (.region indent name id' body)

structure SamePiece (a b : Piece) : Prop where
  before : a.before = b.before
  directive : a.directive = b.directive
  block : SameBlock a.block b.block

structure SameExpanded (a b : Expanded) : Prop where
  pieces : List.Forall₂ SamePiece a.pieces b.pieces
  rest : a.rest = b.rest

-- Included content has no regions, so that its ids are never drawn.
theorem expandFile_withIds (env : Environment) (ids : Nat → Text)
    : expandFile (env.withIds ids) = expandFile env := by rfl

theorem content_withIds (env : Environment) (ids : Nat → Text) (levels : Nat) (chain : List Text)
    : content (env.withIds ids) levels chain = content env levels chain := by
  induction levels generalizing chain with
  | zero => rfl
  | succ levels ih =>
    unfold content
    rw [expandFile_withIds]
    simp only [ih]

def Unrelated (_ _ : Progress) : Prop :=
  True

theorem blind_unrelated : Blind Unrelated where
  report _ _ _ h := h
  record _ _ _ h := h

theorem insertContent_withIds (env : Environment) (ids : Nat → Text) (nested : Bool) (d : Directive)
    (name content : Text)
    : Run.Alike Unrelated SameBlock (insertContent env nested d name content)
        (insertContent (env.withIds ids) nested d name content) := by
  have hdraw : Run.Alike Unrelated (fun _ _ => True) (drawId env.ids) (drawId ids) := by
    intro _ _ _
    exact ⟨trivial, trivial⟩
  unfold insertContent
  dsimp only
  split
  . exact Run.Alike.pure (.nested _)
  . apply Run.Alike.bind hdraw
    intro id id' _
    apply Run.Alike.bind (blind_unrelated.updateReport _)
    intro _ _ _
    exact Run.Alike.pure (.region ..)

theorem expandPiece_withIds (env : Environment) (ids : Nat → Text) {expander : Expander}
    (hexpander : ∀ i, Run.Alike Unrelated Eq (expander i) (expander i)) (nested : Bool) (scope : Scope)
    (piece : Text × Directive)
    : Run.Alike Unrelated SamePiece (expandPiece env expander nested scope piece)
        (expandPiece (env.withIds ids) expander nested scope piece) := by
  unfold expandPiece expandDirective
  apply Run.Alike.bind (V := SameBlock)
  . apply Run.Alike.bind (blind_unrelated.closed.resolve env.library scope piece.2)
    intro target _ htarget
    rw [← htarget]
    unfold expandTarget
    split
    . exact Run.Alike.pure .skipped
    . apply Run.Alike.bind (hexpander _)
      intro content _ hcontent
      rw [← hcontent]
      apply insertContent_withIds
  . intro block block' hblock
    exact Run.Alike.pure ⟨rfl, rfl, hblock⟩

theorem expanded_withIds (env : Environment) (ids : Nat → Text) (nested : Bool) (scope : Scope)
    (text : Text)
    : Run.Alike Unrelated SameExpanded (expanded env nested scope text)
        (expanded (env.withIds ids) nested scope text) := by
  have hcontent := blind_unrelated.content env env.settings.levels []
  unfold expanded
  rw [content_withIds]
  unfold expandWith
  apply Run.Alike.bind (V := List.Forall₂ SamePiece)
  . apply Run.Alike.mapM
    intro piece _
    exact expandPiece_withIds env ids hcontent nested scope piece
  . intro pieces pieces' hpieces
    exact Run.Alike.pure ⟨hpieces, rfl⟩

theorem exists_expanded_withIds {env : Environment} {nested : Bool} {scope : Scope} {text : Text}
    {e : Expanded} {p q : Progress} (h : (expanded env nested scope text).exec p = (.ok e, q))
    (ids : Nat → Text) (p' : Progress)
    : ∃ e', ((expanded (env.withIds ids) nested scope text).exec p').1 = .ok e' ∧ SameExpanded e e' := by
  have hsame := (expanded_withIds env ids nested scope text p p' trivial).1
  rw [h] at hsame
  exact hsame.exists_ok

def SameDrawn (p q : Progress) : Prop :=
  p.idsDrawn = q.idsDrawn

theorem blind_sameDrawn : Blind SameDrawn where
  report _ _ _ h := h
  record _ _ _ h := h

theorem regions_sameDrawn (env : Environment) (nested : Bool)
    : Regions (fun _ r => Run.Alike SameDrawn Eq r r) env nested := by
  intro _
  constructor
  . intro p q hpq
    rw [exec_drawId, exec_drawId, hpq]
    exact ⟨rfl, rfl⟩
  . exact blind_sameDrawn.updateReport _

theorem expanded_eq_of_sameDrawn (env : Environment) (nested : Bool) (scope : Scope) (text : Text)
    {p q : Progress} (h : SameDrawn p q)
    : ((expanded env nested scope text).exec p).1 = ((expanded env nested scope text).exec q).1 := by
  have halike : Run.Alike SameDrawn Eq (expanded env nested scope text)
      (expanded env nested scope text) := by
    apply blind_sameDrawn.closed.expanded (regions_sameDrawn env nested) _ (Nat.le_refl _)
    intro name depth _
    exact blind_sameDrawn.updateReport _
  exact (halike p q h).1.eq

end Expansion
end Transclusion
