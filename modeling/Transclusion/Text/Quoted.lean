import Transclusion.Text.Printable

/-!
This module contains the quoted form in which messages show a text: single quotes unless the text
has some and no double ones, and an escape for every character that is not printable.
-/

namespace Transclusion
namespace Text

def quoteMark (text : Text) : Char :=
  if text.contains '\x27' && !text.contains '"' then '"' else '\x27'

def quoteChar (mark c : Char) : Text :=
  if c == mark || c == '\\' then ['\\', c]
  else if c == '\n' then "\\n"
  else if c == '\r' then "\\r"
  else if c == '\t' then "\\t"
  else if isPrintable c then [c]
  else if c.toNat < 0x100 then "\\x" ++ ofNatHex 2 c.toNat
  else if c.toNat < 0x10000 then "\\u" ++ ofNatHex 4 c.toNat
  else "\\U" ++ ofNatHex 8 c.toNat

def quote (text : Text) : Text :=
  let mark := quoteMark text
  mark :: (text.flatMap (quoteChar mark) ++ [mark])

end Text
end Transclusion
