import Transclusion.Proofs.Directive.Lines
import Transclusion.Proofs.Expansion.Run

/-!
This module contains the expansion of a text line by line: what stands on both sides of a line feed is
expanded one after the other, the second part going on from what the first one has drawn and reported
(`expand_append_newline`).
-/

namespace Transclusion
namespace Expansion

def expandOutline (env : Environment) (expander : Expander) (nested : Bool) (scope : Scope)
    (o : Outline) : Run Text := do
  let pieces ← o.pieces.mapM (expandPiece env expander nested scope)
  return Expanded.text { pieces, rest := o.rest }

section Outline

variable (env : Environment) (expander : Expander) (nested : Bool) (scope : Scope)

theorem expandPiece_prepend (lead before : Text) (d : Directive)
    : expandPiece env expander nested scope (lead ++ before, d)
        = do
      let piece ← expandPiece env expander nested scope (before, d)
      return { piece with before := lead ++ piece.before } := by
  simp [expandPiece]

theorem expandOutline_prepend (lead : Text) (o : Outline)
    : expandOutline env expander nested scope (o.prepend lead)
        = do
      return lead ++ (← expandOutline env expander nested scope o) := by
  obtain ⟨pieces, rest⟩ := o
  cases pieces with
  | nil => simp [expandOutline, Outline.prepend, Expanded.text]
  | cons piece pieces =>
    simp [expandOutline, Outline.prepend, expandPiece_prepend, Expanded.text]

theorem text_append (pieces later : List Piece) (rest : Text)
    : Expanded.text { pieces := pieces ++ later, rest }
        =
      Expanded.text { pieces, rest := [] } ++ Expanded.text { pieces := later, rest } := by
  simp [Expanded.text]

theorem expandOutline_append (o later : Outline)
    : expandOutline env expander nested scope (o.append later)
        = do
      let first ← expandOutline env expander nested scope o
      let second ← expandOutline env expander nested scope later
      return first ++ second := by
  have hrest : ∀ pieces : List Piece, Expanded.text { pieces, rest := o.rest }
      = Expanded.text { pieces, rest := [] } ++ o.rest := by
    intro pieces
    simp [Expanded.text]
  have hsplit : expandOutline env expander nested scope (o.append later)
      = do
    let pieces ← o.pieces.mapM (expandPiece env expander nested scope)
    let second ← expandOutline env expander nested scope (later.prepend o.rest)
    return Expanded.text { pieces, rest := [] } ++ second := by
    simp [expandOutline, Outline.append, List.mapM_append, text_append]
  rw [hsplit, expandOutline_prepend]
  simp [expandOutline, hrest]

end Outline

theorem expand_eq_expandOutline (env : Environment) (nested : Bool) (scope : Scope) (text : Text)
    : expand env nested scope text
        =
      expandOutline env (content env env.settings.levels []) nested scope (Outline.ofText text) := by
  simp [expand, expanded, expandWith, expandOutline]

theorem expand_lines (env : Environment) (nested : Bool) (scope : Scope) (a b : Text)
    : expand env nested scope (a ++ '\n' :: b)
        = do
      let first ← expand env nested scope a
      let second ← expand env nested scope b
      return first ++ '\n' :: second := by
  simp only [expand_eq_expandOutline, Outline.ofText_append_newline, expandOutline_append,
    expandOutline_prepend, bind_assoc, pure_bind]
  rfl

/-- A text is expanded line by line: the first failure ends it, and what follows a line feed goes on
from the progress made before. -/
theorem expand_append_newline (env : Environment) (nested : Bool) (scope : Scope) (a b : Text)
    : findDirectives (a ++ '\n' :: b)
          =
        findDirectives a ++ (findDirectives b).map (·.shift (a.length + 1)) ∧
      ∀ p, (expand env nested scope (a ++ '\n' :: b)).exec p
          =
        match (expand env nested scope a).exec p with
        | (.error e, q) => (.error e, q)
        | (.ok first, q) =>
          match (expand env nested scope b).exec q with
          | (.error e, s) => (.error e, s)
          | (.ok second, s) => (.ok (first ++ '\n' :: second), s) := by
  refine ⟨findDirectives_append_newline a b, ?_⟩
  intro p
  rw [expand_lines, Run.exec_bind]
  cases (expand env nested scope a).exec p with
  | mk outcome q =>
    cases outcome with
    | error e => rfl
    | ok first =>
      dsimp only
      rw [Run.exec_bind]
      cases (expand env nested scope b).exec q with
      | mk outcome s => cases outcome <;> rfl

end Expansion
end Transclusion
