import Transclusion.Text.Surrogates
import Transclusion.Value.Display

/-!
This module contains the writing of JSON texts: every item on a line of its own, indented by its
depth, and all characters beyond ASCII escaped.
-/

namespace Transclusion
namespace Json

variable [Surrogates]

def codeEscape (n : Nat) : Text :=
  "\\u" ++ Text.ofNatHex 4 n

def stringChar (c : Char) : Text :=
  match c with
  | '"' => "\\\""
  | '\\' => "\\\\"
  | '\n' => "\\n"
  | '\r' => "\\r"
  | '\t' => "\\t"
  | '\x08' => "\\b"
  | '\x0c' => "\\f"
  | _ =>
    let n := (Surrogates.code? c).getD c.toNat
    if 32 ≤ n && n < 127 then [c]
    else if n < 0x10000 then codeEscape n
    else
      codeEscape (0xd800 + (n - 0x10000) / 0x400) ++ codeEscape (0xdc00 + (n - 0x10000) % 0x400)

def stringText (text : Text) : Text :=
  '"' :: (text.flatMap stringChar ++ ['"'])

def floatText : Binary64 → Text
  | .nan _ => "NaN"
  | .infinite negative => if negative then "-Infinity" else "Infinity"
  | x => x.text

def lineBreak (indent depth : Nat) : Text :=
  '\n' :: List.replicate (indent * depth) ' '

def block (indent depth : Nat) (opening closing : Char) (items : List Text) : Text :=
  if items.isEmpty then [opening, closing]
  else
    let separator := ',' :: lineBreak indent (depth + 1)
    opening :: (lineBreak indent (depth + 1) ++ separator.intercalate items ++
      lineBreak indent depth ++ [closing])

def nameText : Value → Text
  | .text t => t
  | .null => "null"
  | .bool b => if b then "true" else "false"
  | .float x => floatText x
  | key => key.display

mutual

def valueText (indent depth : Nat) : Value → Text
  | .null => "null"
  | .bool b => if b then "true" else "false"
  | .int n => Text.ofInt n
  | .float x => floatText x
  | .text t => stringText t
  | .pair first second =>
    block indent depth '[' ']'
      [valueText indent (depth + 1) first, valueText indent (depth + 1) second]
  | .list items => block indent depth '[' ']' (itemTexts indent (depth + 1) items)
  | .map entries => block indent depth '\x7b' '\x7d' (entryTexts indent (depth + 1) entries)
  | value => stringText value.display

def itemTexts (indent depth : Nat) : List Value → List Text
  | [] => []
  | item :: rest => valueText indent depth item :: itemTexts indent depth rest

def entryTexts (indent depth : Nat) : List (Value × Value) → List Text
  | [] => []
  | (key, value) :: rest =>
    (stringText (nameText key) ++ ": " ++ valueText indent depth value) ::
      entryTexts indent depth rest

end

def print (indent : Nat) (value : Value) : Text :=
  valueText indent 0 value

end Json
end Transclusion
