import Transclusion.OrderedMap
import Transclusion.Text.Basic

/-!
This module contains scopes: the variables that a text may refer to, in the order in which they are
substituted.
-/

namespace Transclusion

abbrev Scope := OrderedMap Text Text

namespace Scope

def extend (scope : Scope) (name value : Text) : Scope :=
  scope.alter name fun old => old.getD [] ++ value

def merge (base overlay : Scope) : Scope :=
  overlay.entries.foldl (fun scope (name, value) => scope.extend name value) base

theorem get?_extend (scope : Scope) (name value other : Text) :
    (scope.extend name value).get? other =
      if other == name then some ((scope.get? name).getD [] ++ value) else scope.get? other :=
  scope.get?_alter name other _

theorem keys_extend (scope : Scope) (name value : Text) :
    (scope.extend name value).keys =
      if name ∈ scope.keys then scope.keys else scope.keys ++ [name] :=
  scope.keys_alter name _

@[simp]
theorem merge_empty (base : Scope) : base.merge ∅ = base := rfl

end Scope
end Transclusion
