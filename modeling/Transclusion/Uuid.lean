import Transclusion.Text.Basic

/-!
This module contains the text of universally unique identifiers.
-/

namespace Transclusion

def uuidText (n : Nat) : Text :=
  let digits := (Text.ofNatHex 32 n).map Char.toUpper
  (['-'] : Text).intercalate [Text.slice digits 0 8, Text.slice digits 8 12,
    Text.slice digits 12 16, Text.slice digits 16 20, digits.drop 20]

end Transclusion
