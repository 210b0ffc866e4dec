import Transclusion.Configuration.Sections
import Transclusion.Expansion

/-!
This module contains the settings of an expansion that a configuration holds.
-/

namespace Transclusion
namespace Configuration

def expansionSettings (config : Document) : Except Failure Expansion.Settings := do
  let nestingIndent ← nestingIndent config
  let maxDepth ← maxDepth config
  return { nestingIndent, maxDepth }

end Configuration
end Transclusion
