import Transclusion.Decimal.Integer
import Transclusion.Failure
import Transclusion.Json.Reader
import Transclusion.Text.Case

/-!
This module contains the reading of settings that are given as plain texts: truth values, numbers
and bracketed JSON texts are recognised, anything else is a text.
-/

namespace Transclusion
namespace Configuration

def bool? (text : Text) : Option Bool :=
  let word := Text.lower (Text.strip text)
  if word = ['t', 'r', 'u', 'e'] then some true
  else if word = ['f', 'a', 'l', 's', 'e'] then some false
  else none

def isInteger (text : Text) : Bool :=
  let (_, digits) := Decimal.cutSign text
  !digits.isEmpty && digits.all Text.isDigit

def int? (text : Text) : Except Failure (Option Int) :=
  if isInteger (Text.strip text) then
    match Decimal.readInt? text with
    | some n => .ok (some n)
    | none =>
      .error (.invalidValue ("invalid literal for int() with base 10: " ++
        (Text.quote text).take 200))
  else .ok none

def float? (text : Text) : Option Binary64 :=
  let (negative, unsigned) := Decimal.cutSign (Text.strip text)
  match unsigned.splitOn '.' with
  | [whole, fraction] =>
    if (whole ++ fraction).all Text.isDigit && !(whole ++ fraction).isEmpty then
      some (.ofDecimal negative (Text.digitsValue (whole ++ fraction)) (-(fraction.length : Int)))
    else none
  | _ => none

def isBracketed (text : Text) : Bool :=
  match text.head?, text.getLast? with
  | some '\x7b', some '\x7d' => true
  | some '[', some ']' => true
  | _, _ => false

variable [Surrogates]

def json? (text : Text) : Option Value :=
  let text := Text.strip text
  if isBracketed text then (Json.read text).toOption else none

/-- The value that a text stands for. A text of white space alone stands for itself, any other text
for itself without the white space around it. -/
def coerce (text : Text) : Except Failure Value := do
  match bool? text with
  | some b => return .bool b
  | none =>
    match ← int? text with
    | some n => return .int n
    | none =>
      match float? text with
      | some x => return .float x
      | none =>
        match json? text with
        | some value => return value
        | none =>
          let stripped := Text.strip text
          return .text (if stripped.isEmpty then text else stripped)

end Configuration
end Transclusion
