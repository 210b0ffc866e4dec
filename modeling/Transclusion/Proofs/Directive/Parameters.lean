import Transclusion.Directive.Parameters

/-!
This module contains how the tokens of a directive make its parameters: where the value of a keyword
comes from (`valueAfter?_append`), and which tokens are bindings (`binding?_eq_none_iff`).
-/

namespace Transclusion
namespace Parameters

theorem valueAfter?_append_of_not_mem {keyword : Text} {tokens : List Text} (h : keyword ∉ tokens)
    (later : List Text) : valueAfter? keyword (tokens ++ later) = valueAfter? keyword later := by
  induction tokens with
  | nil => rfl
  | cons token tokens ih =>
    rw [List.mem_cons, not_or] at h
    rw [List.cons_append, valueAfter?, if_neg (Ne.symm h.1), ih h.2]

theorem valueAfter?_append_of_isSome {keyword : Text} {tokens : List Text}
    (h : (valueAfter? keyword tokens).isSome) (later : List Text)
    : valueAfter? keyword (tokens ++ later) = valueAfter? keyword tokens := by
  induction tokens with
  | nil => simp [valueAfter?] at h
  | cons token tokens ih =>
    rw [valueAfter?] at h
    rw [List.cons_append, valueAfter?, valueAfter?]
    split
    next hkeyword =>
      rw [if_pos hkeyword] at h
      cases tokens with
      | nil => simp at h
      | cons value tokens => rfl
    next hkeyword =>
      rw [if_neg hkeyword] at h
      exact ih h

theorem binding?_eq_none_iff {token : Text} : binding? token = none ↔ '=' ∉ token := by
  unfold binding?
  constructor
  . intro h hmem
    obtain ⟨name, rest, rfl, hname⟩ := List.eq_append_cons_of_mem hmem
    rw [List.splitOn_append_cons_self_of_not_mem hname] at h
    cases hrest : rest.splitOn '=' with
    | nil => exact List.splitOn_ne_nil _ _ hrest
    | cons value values => simp [hrest] at h
  . intro h
    rw [List.splitOn_eq_singleton h]

end Parameters
end Transclusion
