import Transclusion.Decimal.Shortest
import Transclusion.Text.Quoted
import Transclusion.Value.Basic

/-!
This module contains the two texts of a value: `Value.quoted` is the unambiguous form that messages
show, and `Value.display` is the plain one, in which a text is itself. A collection that a store
holds shows as points in its brackets.
-/

namespace Transclusion

def commaSeparated (items : List Text) : Text :=
  (", " : Text).intercalate items

def Moment.quotedDelta (minutes : Int) : Text :=
  let days := minutes.fdiv 1440
  let seconds := (minutes - days * 1440) * 60
  let dayPart : List Text := if days = 0 then [] else [("days=" : Text) ++ Text.ofInt days]
  let secondPart : List Text :=
    if seconds = 0 then [] else [("seconds=" : Text) ++ Text.ofInt seconds]
  let parts : List Text := dayPart ++ secondPart
  "datetime.timedelta(" ++ (if parts.isEmpty then ['0'] else commaSeparated parts) ++ ")"

def Moment.quotedOffset (minutes : Int) : Text :=
  if minutes = 0 then "datetime.timezone.utc"
  else "datetime.timezone(" ++ quotedDelta minutes ++ ")"

def Moment.quoted (m : Moment) : Text :=
  let fraction : List Nat :=
    if m.microsecond = 0 then (if m.second = 0 then [] else [m.second])
    else [m.second, m.microsecond]
  let numbers := [m.date.year, m.date.month, m.date.day, m.hour, m.minute] ++ fraction
  let offset : List Text :=
    match m.offset with
    | some minutes => [("tzinfo=" : Text) ++ quotedOffset minutes]
    | none => []
  "datetime.datetime(" ++ commaSeparated (numbers.map Text.ofNat ++ offset) ++ ")"

def Date.quoted (d : Date) : Text :=
  "datetime.date(" ++ commaSeparated ([d.year, d.month, d.day].map Text.ofNat) ++ ")"

def quotedBytes (bytes : List UInt8) : Text :=
  let text : Text := bytes.map fun b => Char.ofNat b.toNat
  let mark := Text.quoteMark text
  let char (c : Char) : Text :=
    if c.toNat < 128 then Text.quoteChar mark c else "\\x" ++ Text.ofNatHex 2 c.toNat
  'b' :: mark :: (text.flatMap char ++ [mark])

namespace Value

mutual

def quoted : Value → Text
  | .null => "None"
  | .bool b => if b then "True" else "False"
  | .int n => Text.ofInt n
  | .float x => x.text
  | .text t => Text.quote t
  | .date d => d.quoted
  | .moment m => m.quoted
  | .bytes b => quotedBytes b
  | .pair first second => "(" ++ commaSeparated [first.quoted, second.quoted] ++ ")"
  | .list items => "[" ++ commaSeparated (quotedItems items) ++ "]"
  | .map entries => "\x7b" ++ commaSeparated (quotedEntries entries) ++ "\x7d"
  | .members items =>
    if items.isEmpty then "set()" else "\x7b" ++ commaSeparated (quotedItems items) ++ "\x7d"
  | .held .list _ => "[...]"
  | .held _ _ => "\x7b...\x7d"

def quotedItems : List Value → List Text
  | [] => []
  | item :: rest => item.quoted :: quotedItems rest

def quotedEntries : List (Value × Value) → List Text
  | [] => []
  | (key, value) :: rest => (key.quoted ++ ": " ++ value.quoted) :: quotedEntries rest

end

def display : Value → Text
  | .text t => t
  | .date d => d.text
  | .moment m => m.text ' '
  | value => value.quoted

end Value
end Transclusion
