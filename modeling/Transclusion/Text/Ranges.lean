import Transclusion.Text.Basic

/-!
This module contains the look-up in a table of closed ranges of code points, the form in which the
character classes of the neighbouring modules are written down.
-/

namespace Transclusion
namespace Text

def inRanges (ranges : List (Nat × Nat)) (c : Char) : Bool :=
  ranges.any fun (lo, hi) => lo ≤ c.toNat && c.toNat ≤ hi

end Text
end Transclusion
