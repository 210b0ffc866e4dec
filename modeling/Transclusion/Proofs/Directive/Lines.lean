import Transclusion.Directive.Basic
import Transclusion.Proofs.Text.Search

/-!
This module contains how the outline of a text comes from its lines: a directive and its indentation
lie on one line, so that a line feed cuts the outline in two (`ofText_append_newline`), and the
directives of the later lines only move (`findDirectives_append_newline`).
-/

namespace Transclusion
namespace Directive

theorem upToCommentEnd_append_newline (a b : Text)
    : upToCommentEnd (a ++ '\n' :: b) = upToCommentEnd a := by
  induction a with
  | nil => rfl
  | cons c a ih =>
    by_cases hc : c = '\n'
    . subst hc
      rfl
    . have hend : commentEnd.isPrefixOf (c :: (a ++ '\n' :: b)) = commentEnd.isPrefixOf (c :: a) := by
        rw [Bool.eq_iff_iff, List.isPrefixOf_iff_prefix, List.isPrefixOf_iff_prefix, ← List.cons_append]
        exact Text.prefix_append_cons_iff (by decide)
      rw [List.cons_append, upToCommentEnd, upToCommentEnd, hend, ih]
      . exact hc
      . exact hc

theorem parametersAt?_append_newline (a b : Text)
    : parametersAt? (a ++ '\n' :: b) = parametersAt? a := by
  have hlead : '\n' ∉ commentLead ++ includeLead := by decide
  unfold parametersAt?
  rw [Text.isPrefixOf?_append_cons hlead]
  cases (commentLead ++ includeLead).isPrefixOf? a with
  | none => rfl
  | some rest =>
    dsimp only [Option.map_some]
    rw [upToCommentEnd_append_newline]

theorem newline_not_mem_of_upToCommentEnd_eq_some {text parameters : Text}
    (h : upToCommentEnd text = some parameters) : '\n' ∉ parameters := by
  induction text generalizing parameters with
  | nil => simp [upToCommentEnd] at h
  | cons c text ih =>
    by_cases hc : c = '\n'
    . rw [hc, upToCommentEnd] at h
      simp at h
    . rw [upToCommentEnd] at h
      . split at h
        next =>
          cases h
          exact List.not_mem_nil
        next =>
          obtain ⟨inner, hinner, rfl⟩ := Option.map_eq_some_iff.mp h
          rw [List.mem_cons, not_or]
          exact ⟨Ne.symm hc, ih hinner⟩
      . exact hc

theorem newline_not_mem_of_parametersAt?_eq_some {text parameters : Text}
    (h : parametersAt? text = some parameters) : '\n' ∉ parameters := by
  unfold parametersAt? at h
  split at h
  next =>
    obtain ⟨inner, hinner, rfl⟩ := Option.map_eq_some_iff.mp h
    rw [List.mem_append, not_or]
    exact ⟨by decide, newline_not_mem_of_upToCommentEnd_eq_some hinner⟩
  next => simp at h

end Directive

namespace Outline

def prepend (lead : Text) (o : Outline) : Outline :=
  match o.pieces with
  | [] => { o with rest := lead ++ o.rest }
  | (before, d) :: pieces => { o with pieces := (lead ++ before, d) :: pieces }

def append (o later : Outline) : Outline :=
  let later := later.prepend o.rest
  { later with pieces := o.pieces ++ later.pieces }

theorem prepend_prepend (a b : Text) (o : Outline) : (o.prepend b).prepend a = o.prepend (a ++ b) := by
  obtain ⟨pieces, rest⟩ := o
  cases pieces <;> simp [prepend]

theorem append_cons (piece : Text × Directive) (pieces : List (Text × Directive)) (rest : Text)
    (later : Outline)
    : append { pieces := piece :: pieces, rest } later
        =
      { append { pieces, rest } later with
        pieces := piece :: (append { pieces, rest } later).pieces } := by rfl

theorem indentOf_append_newline (before earlier : Text)
    : indentOf (before ++ '\n' :: earlier) = indentOf before := by
  unfold indentOf
  congr 1
  induction before with
  | nil => rfl
  | cons c before ih =>
    rw [List.cons_append, List.takeWhile_cons, List.takeWhile_cons, ih]

-- What lies before the last line feed only adds to the text before the next directive.
theorem go_newline (before earlier text : Text)
    : ofText.go 0 (before ++ '\n' :: earlier) text
        =
      (ofText.go 0 before text).prepend (earlier.reverse ++ ['\n']) := by
  induction text generalizing before with
  | nil => simp [ofText.go, prepend]
  | cons c text ih =>
    rw [ofText.go, ofText.go, indentOf_append_newline]
    split
    next => simp [prepend]
    next => exact ih (c :: before)

theorem go_of_parametersAt?_eq_none {c : Char} {before text : Text}
    (h : Directive.parametersAt? (c :: text) = none)
    : ofText.go 0 before (c :: text) = ofText.go 0 (c :: before) text := by
  rw [ofText.go, h]

theorem length_text_le {text parameters : Text} (h : Directive.parametersAt? text = some parameters)
    (indent : Text) : (Directive.mk indent parameters).text.length ≤ text.length := by
  obtain ⟨rest, hrest⟩ := Directive.exists_append_of_parametersAt?_eq_some h indent
  rw [hrest, List.length_append]
  omega

theorem go_append_newline {skip : Nat} {before a : Text} (h : skip ≤ a.length) (b : Text)
    : ofText.go skip before (a ++ '\n' :: b)
        =
      (ofText.go skip before a).append ((ofText b).prepend ['\n']) := by
  induction a generalizing skip before with
  | nil =>
    obtain rfl : skip = 0 := by simpa using h
    have hnone : Directive.parametersAt? ('\n' :: b) = none := by rfl
    rw [List.nil_append, go_of_parametersAt?_eq_none hnone, ← List.nil_append ('\n' :: before),
      go_newline]
    simp [ofText.go, append, prepend_prepend, ofText]
  | cons c a ih =>
    rw [List.length_cons] at h
    rw [List.cons_append]
    cases skip with
    | succ skip =>
      rw [ofText.go, ofText.go]
      exact ih (by omega)
    | zero =>
      have hhere := Directive.parametersAt?_append_newline (c :: a) b
      rw [List.cons_append] at hhere
      rw [ofText.go, ofText.go, hhere]
      split
      next parameters hparameters =>
        have hlength := length_text_le hparameters (indentOf before)
        rw [List.length_cons] at hlength
        dsimp only
        rw [ih (by omega), append_cons]
      next => exact ih (Nat.zero_le _)

theorem ofText_append_newline (a b : Text)
    : ofText (a ++ '\n' :: b) = (ofText a).append ((ofText b).prepend ['\n']) :=
  go_append_newline (Nat.zero_le _) b

end Outline

def Located.shift (n : Nat) (l : Located) : Located :=
  { l with start := l.start + n, stop := l.stop + n }

theorem locate_shift (start n : Nat) (pieces : List (Text × Directive))
    : locate (start + n) pieces = (locate start pieces).map (·.shift n) := by
  induction pieces generalizing start with
  | nil => rfl
  | cons piece pieces ih =>
    have hfirst : start + n + piece.1.length = start + piece.1.length + n := by omega
    have hstop : start + piece.1.length + n + piece.2.text.length
        = start + piece.1.length + piece.2.text.length + n := by omega
    rw [locate, locate, List.map_cons, Located.shift, hfirst, hstop, ih]

theorem locate_append (start : Nat) (pieces later : List (Text × Directive))
    : locate start (pieces ++ later)
        =
      locate start pieces ++
        locate (start + (Outline.toText { pieces, rest := [] }).length) later := by
  induction pieces generalizing start with
  | nil => rfl
  | cons piece pieces ih =>
    rw [List.cons_append, locate, locate, ih, List.cons_append]
    congr 3
    simp only [Outline.toText, List.flatMap_cons, List.length_append]
    omega

theorem locate_prepend (start : Nat) (lead : Text) (o : Outline)
    : locate start (o.prepend lead).pieces = locate (start + lead.length) o.pieces := by
  obtain ⟨pieces, rest⟩ := o
  cases pieces with
  | nil => rfl
  | cons piece pieces => simp [Outline.prepend, locate, Nat.add_assoc]

theorem findDirectives_append_newline (a b : Text)
    : findDirectives (a ++ '\n' :: b)
        =
      findDirectives a ++ (findDirectives b).map (·.shift (a.length + 1)) := by
  have hlength : (Outline.toText { pieces := (Outline.ofText a).pieces, rest := [] }).length +
      (Outline.ofText a).rest.length = a.length := by
    rw [← List.length_append, Outline.toText, List.append_nil]
    exact congrArg List.length (Outline.toText_ofText a)
  unfold findDirectives
  rw [Outline.ofText_append_newline, Outline.append, locate_append, ← locate_shift,
    Outline.prepend_prepend, locate_prepend, Nat.zero_add, List.length_append, List.length_singleton]
  congr 2
  omega

end Transclusion
