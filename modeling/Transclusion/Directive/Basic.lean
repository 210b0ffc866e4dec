import Transclusion.Text.Blank

/-!
This module contains include directives, the comments `<!-- include … -->`, and the outline of a
document: its directives and the texts between them. A directive lies on one line and ends at the
first `-->` after its keyword. The main statement is `Outline.toText_ofText`: an outline loses
nothing of its document.
-/

namespace Transclusion

def commentLead : Text := "<!-- "

def includeLead : Text := "include "

def commentEnd : Text := "-->"

structure Directive where
  indent : Text
  parameters : Text
  deriving DecidableEq, Repr

namespace Directive

def text (d : Directive) : Text :=
  commentLead ++ d.parameters ++ commentEnd

def upToCommentEnd : Text → Option Text
  | [] => none
  | '\n' :: _ => none
  | c :: rest =>
    if commentEnd.isPrefixOf (c :: rest) then some [] else (upToCommentEnd rest).map (c :: ·)

def parametersAt? (text : Text) : Option Text :=
  match (commentLead ++ includeLead).isPrefixOf? text with
  | some rest => (upToCommentEnd rest).map (includeLead ++ ·)
  | none => none

end Directive

structure Outline where
  pieces : List (Text × Directive)
  rest : Text
  deriving DecidableEq, Repr

namespace Outline

def toText (o : Outline) : Text :=
  o.pieces.flatMap (fun (before, d) => before ++ d.text) ++ o.rest

def indentOf (reversed : Text) : Text :=
  (reversed.takeWhile Text.isIndent).reverse

def ofText (text : Text) : Outline :=
  go 0 [] text
where
  /-- The first argument counts the characters still covered by the last directive, the second holds
  the characters since then in reverse. -/
  go : Nat → Text → Text → Outline
    | _, before, [] => { pieces := [], rest := before.reverse }
    | skip + 1, before, _ :: rest => go skip before rest
    | 0, before, c :: rest =>
      match Directive.parametersAt? (c :: rest) with
      | some parameters =>
        let directive : Directive := { indent := indentOf before, parameters }
        let tail := go (directive.text.length - 1) [] rest
        { tail with pieces := (before.reverse, directive) :: tail.pieces }
      | none => go 0 (c :: before) rest

end Outline

structure Located where
  directive : Directive
  start : Nat
  stop : Nat
  deriving DecidableEq, Repr

def locate (start : Nat) : List (Text × Directive) → List Located
  | [] => []
  | (before, directive) :: rest =>
    let first := start + before.length
    let stop := first + directive.text.length
    { directive, start := first, stop } :: locate stop rest

def findDirectives (text : Text) : List Located :=
  locate 0 (Outline.ofText text).pieces

namespace Directive

theorem append_of_upToCommentEnd_eq_some {text parameters : Text}
    (h : upToCommentEnd text = some parameters) :
    ∃ rest, text = parameters ++ commentEnd ++ rest := by
  induction text generalizing parameters with
  | nil => simp [upToCommentEnd] at h
  | cons c text ih =>
    unfold upToCommentEnd at h
    split at h
    next => simp_all
    next => simp at h
    next c' text' _ heq =>
      obtain ⟨rfl, rfl⟩ := List.cons.inj heq
      split at h
      next hend =>
        obtain ⟨rest, hrest⟩ := List.isPrefixOf_iff_prefix.mp hend
        cases h
        exact ⟨rest, by simp [← hrest]⟩
      next =>
        obtain ⟨inner, hinner, rfl⟩ := Option.map_eq_some_iff.mp h
        obtain ⟨rest, hrest⟩ := ih hinner
        exact ⟨rest, by simp [hrest]⟩

theorem exists_append_of_parametersAt?_eq_some {text parameters : Text}
    (h : parametersAt? text = some parameters) (indent : Text) :
    ∃ rest, text = (Directive.mk indent parameters).text ++ rest := by
  unfold parametersAt? at h
  split at h
  next after hafter =>
    obtain ⟨inner, hinner, rfl⟩ := Option.map_eq_some_iff.mp h
    obtain ⟨rest, hrest⟩ := append_of_upToCommentEnd_eq_some hinner
    refine ⟨rest, ?_⟩
    rw [Text.isPrefixOf?_eq_some_iff.mp hafter, hrest]
    simp [Directive.text]
  next => simp at h

theorem text_ne_nil (d : Directive) : d.text ≠ [] := by
  simp [Directive.text, commentLead]

end Directive

namespace Outline

theorem toText_go (skip : Nat) (before text : Text) (h : skip = 0 ∨ before = []) :
    (ofText.go skip before text).toText = before.reverse ++ text.drop skip := by
  induction text generalizing skip before with
  | nil => cases skip <;> simp [ofText.go, toText]
  | cons c rest ih =>
    cases skip with
    | succ skip =>
      rw [ofText.go, ih]
      . simp
      . exact .inr (h.resolve_left (by simp))
    | zero =>
      rw [ofText.go]
      split
      next parameters hparameters =>
        obtain ⟨after, hafter⟩ :=
          Directive.exists_append_of_parametersAt?_eq_some hparameters (indentOf before)
        have hdrop : rest.drop ((Directive.mk (indentOf before) parameters).text.length - 1)
            = after := by
          cases htext : (Directive.mk (indentOf before) parameters).text with
          | nil => exact absurd htext (Directive.text_ne_nil _)
          | cons a tail =>
            rw [htext] at hafter
            simp only [List.cons_append, List.cons.injEq] at hafter
            simp [hafter.2]
        have := ih ((Directive.mk (indentOf before) parameters).text.length - 1) [] (.inr rfl)
        simp only [toText, List.reverse_nil, List.nil_append, hdrop] at this
        simp [toText, this, hafter]
      next =>
        rw [ih _ _ (.inl rfl)]
        simp

@[simp]
theorem toText_ofText (text : Text) : (ofText text).toText = text := by
  simpa [ofText] using toText_go 0 [] text (.inl rfl)

end Outline
end Transclusion
