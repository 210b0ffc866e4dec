import Transclusion.OrderedMap
import Transclusion.Path

/-!
This module contains the index by which directives find files: every name leads to one path.
-/

namespace Transclusion

abbrev SourceIndex := OrderedMap Text Path

namespace SourceIndex

def ofEntries (entries : List (Text × Path)) : SourceIndex :=
  entries.foldl (fun index (name, path) => index.insertNew name path) ∅

end SourceIndex
end Transclusion
