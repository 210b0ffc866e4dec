import Transclusion.OrderedMap
import Transclusion.Text.Alphanumeric
import Transclusion.Text.Case

/-!
This module contains the transforms that a placeholder can ask for, and the one that is always
there: `capitalized` puts a capital at the front of every word.
-/

namespace Transclusion

abbrev Transform := Text → Text

namespace Transform

def capitalizeWord : Text → Text
  | [] => []
  | c :: rest => Text.upperChar c ++ Text.lower rest

def capitalized (text : Text) : Text :=
  go [] text
where
  go : Text → Text → Text
    | word, [] => capitalizeWord word.reverse
    | word, c :: rest =>
      if Text.isAlphanumeric c then go (c :: word) rest
      else capitalizeWord word.reverse ++ c :: go [] rest

end Transform

abbrev Transforms := OrderedMap Text Transform

namespace Transforms

def standard : Transforms :=
  (∅ : Transforms).insert "capitalized" Transform.capitalized

end Transforms
end Transclusion
