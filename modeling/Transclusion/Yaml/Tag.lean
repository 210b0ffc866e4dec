import Transclusion.Text.Basic

/-!
This module contains the tags of YAML nodes: those written down and those that plain scalars get
from their form. The forms are the ones of YAML 1.1.
-/

namespace Transclusion
namespace Yaml

inductive Tag
  | null
  | bool
  | int
  | float
  | text
  | timestamp
  | binary
  | sequence
  | mapping
  | members
  | orderedMapping
  | pairs
  | merge
  | default
  | unknown
  deriving DecidableEq, Repr

namespace Tag

def standardLead : Text := "tag:yaml.org,2002:"

def ofName? (name : Text) : Option Tag :=
  [("null".toList, Tag.null), ("bool".toList, .bool), ("int".toList, .int),
    ("float".toList, .float), ("str".toList, .text), ("timestamp".toList, .timestamp),
    ("binary".toList, .binary), ("seq".toList, .sequence), ("map".toList, .mapping),
    ("set".toList, .members), ("omap".toList, .orderedMapping), ("pairs".toList, .pairs),
    ("merge".toList, .merge), ("value".toList, .default)].lookup name

def ofText (text : Text) : Tag :=
  ((standardLead.isPrefixOf? text).bind ofName?).getD .unknown

/-! ## The forms of plain scalars -/

def boolWords : List Text :=
  ["yes".toList, "Yes".toList, "YES".toList, "no".toList, "No".toList, "NO".toList,
    "true".toList, "True".toList, "TRUE".toList, "false".toList, "False".toList,
    "FALSE".toList, "on".toList, "On".toList, "ON".toList, "off".toList, "Off".toList,
    "OFF".toList]

def nullWords : List Text :=
  [[], "~".toList, "null".toList, "Null".toList, "NULL".toList]

def infinityWords : List Text :=
  [".inf".toList, ".Inf".toList, ".INF".toList]

def nanWords : List Text :=
  [".nan".toList, ".NaN".toList, ".NAN".toList]

def unsigned (text : Text) : Text :=
  match text with
  | '-' :: rest | '+' :: rest => rest
  | _ => text

def isDigitOrLow (c : Char) : Bool :=
  c.isDigit || c == '_'

def isDigits : Text → Bool
  | c :: rest => c.isDigit && rest.all isDigitOrLow
  | [] => false

def isSixtieth : Text → Bool
  | [c] => c.isDigit
  | [tens, c] => '0' ≤ tens && tens ≤ '5' && c.isDigit
  | _ => false

def isPositive : Text → Bool
  | c :: rest => c != '0' && isDigits (c :: rest)
  | [] => false

def isIntForm (text : Text) : Bool :=
  let text := unsigned text
  match text with
  | '0' :: 'b' :: digits =>
    !digits.isEmpty && digits.all fun c => c == '0' || c == '1' || c == '_'
  | '0' :: 'x' :: digits =>
    !digits.isEmpty &&
      digits.all fun c => isDigitOrLow c || ('a' ≤ c && c ≤ 'f') || ('A' ≤ c && c ≤ 'F')
  | ['0'] => true
  | '0' :: digits => digits.all fun c => ('0' ≤ c && c ≤ '7') || c == '_'
  | _ =>
    match text.splitOn ':' with
    | first :: parts => isPositive first && parts.all isSixtieth
    | [] => false

def isExponent : Text → Bool
  | [] => true
  | e :: sign :: digits =>
    (e == 'e' || e == 'E') && (sign == '-' || sign == '+') && !digits.isEmpty &&
      digits.all Char.isDigit
  | _ => false

def isFloatForm (text : Text) : Bool :=
  let signless := unsigned text
  let whole := signless.takeWhile isDigitOrLow
  match signless.drop whole.length with
  | '.' :: rest =>
    let fraction := rest.takeWhile isDigitOrLow
    let exponent := rest.drop fraction.length
    if whole.isEmpty then
      -- Without digits before the point there is no sign.
      (text.head? == some '.' && isDigits fraction && isExponent exponent) ||
        infinityWords.contains signless || nanWords.contains text
    else isDigits whole && isExponent exponent
  | ':' :: _ =>
    match signless.splitOn '.' with
    | [sixtieths, fraction] =>
      match sixtieths.splitOn ':' with
      | first :: parts => isDigits first && parts.all isSixtieth && fraction.all isDigitOrLow
      | [] => false
    | _ => false
  | _ => false

end Tag

/-! ## Dates and times -/

structure TimestampForm where
  year : Text
  month : Text
  day : Text
  clock : Option (Text × Text × Text × Text)
  offset : Option (Bool × Text × Text)
  deriving DecidableEq, Repr

def withoutLastBreak (text : Text) : Text :=
  if text.getLast? == some '\n' then text.dropLast else text

namespace TimestampForm

def digits? (least most : Nat) (text : Text) : Option (Text × Text) :=
  let digits := (text.take most).takeWhile Char.isDigit
  if digits.length < least then none else some (digits, text.drop digits.length)

def char? (p : Char → Bool) : Text → Option Text
  | c :: rest => if p c then some rest else none
  | [] => none

def skipBlanks (text : Text) : Text :=
  text.dropWhile fun c => c == ' ' || c == '\t'

def offset? (text : Text) : Option (Option (Bool × Text × Text)) :=
  if text.isEmpty then some none
  else
    match skipBlanks text with
    | ['Z'] => some (some (false, ['0'], ['0']))
    | sign :: rest =>
      if sign == '-' || sign == '+' then do
        let (hours, rest) ← digits? 1 2 rest
        if rest.isEmpty then some (some (sign == '-', hours, ['0']))
        else
          let rest ← char? (· == ':') rest
          let (minutes, rest) ← digits? 2 2 rest
          if rest.isEmpty then some (some (sign == '-', hours, minutes)) else none
      else none
    | [] => none

def separator? (text : Text) : Option Text :=
  match text with
  | 'T' :: rest | 't' :: rest => some rest
  | _ =>
    let rest := skipBlanks text
    if rest.length < text.length then some rest else none

def parse? (text : Text) : Option TimestampForm := do
  let (year, rest) ← digits? 4 4 text
  let rest ← char? (· == '-') rest
  let (month, rest) ← digits? 1 2 rest
  let rest ← char? (· == '-') rest
  let (day, rest) ← digits? 1 2 rest
  if rest.isEmpty then some { year, month, day, clock := none, offset := none }
  else
    let rest ← separator? rest
    let (hour, rest) ← digits? 1 2 rest
    let rest ← char? (· == ':') rest
    let (minute, rest) ← digits? 2 2 rest
    let rest ← char? (· == ':') rest
    let (second, rest) ← digits? 2 2 rest
    let (fraction, rest) :=
      match rest with
      | '.' :: rest => (rest.takeWhile Char.isDigit, rest.dropWhile Char.isDigit)
      | _ => ([], rest)
    let offset ← offset? rest
    some { year, month, day, clock := some (hour, minute, second, fraction), offset }

def isImplicit (t : TimestampForm) : Bool :=
  t.clock.isSome || (t.month.length == 2 && t.day.length == 2)

end TimestampForm

def Tag.ofForm (text : Text) : Tag :=
  if boolWords.contains text then .bool
  else if isFloatForm text then .float
  else if isIntForm text then .int
  else if text = ['<', '<'] then .merge
  else if nullWords.contains text then .null
  else if (TimestampForm.parse? text).any TimestampForm.isImplicit then .timestamp
  else if text = ['='] then .default
  else if text = ['!'] || text = ['&'] || text = ['*'] then .unknown
  else .text

def Tag.ofPlain (text : Text) : Tag :=
  if text = ['\n'] then .text else ofForm (withoutLastBreak text)

end Yaml
end Transclusion
