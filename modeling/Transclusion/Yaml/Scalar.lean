import Transclusion.Decimal.Integer
import Transclusion.Failure
import Transclusion.Text.Base64
import Transclusion.Text.Case
import Transclusion.Yaml.Tag

/-!
This module contains the values of YAML scalars: integers to several bases, numbers to the base
sixty, dates and times, and bytes.
-/

namespace Transclusion
namespace Yaml

def withoutLows (text : Text) : Text :=
  text.filter (· != '_')

def signed (text : Text) : Except Failure (Bool × Text) :=
  if text.isEmpty then .error .emptyNumber else .ok (Decimal.cutSign text)

/-! ## Integers -/

def sixtiethsValue : List Int → Int
  | [] => 0
  | part :: rest => part + 60 * sixtiethsValue rest

def readInt (base : Nat) (text : Text) : Except Failure Int :=
  match Decimal.readIn? base text with
  | some n => .ok n
  | none =>
    .error (.invalidValue ("invalid literal for int() with base " ++ Text.ofNat base ++ ": " ++
      (Text.quote text).take 200))

def intValue (text : Text) : Except Failure Int := do
  let (negative, digits) ← signed (withoutLows text)
  let magnitude ←
    match digits with
    | [] => throw .emptyNumber
    | ['0'] => pure 0
    | '0' :: 'b' :: digits => readInt 2 digits
    | '0' :: 'x' :: digits => readInt 16 digits
    | '0' :: _ => readInt 8 digits
    | _ =>
      if digits.contains ':' then
        pure (sixtiethsValue (← (digits.splitOn ':').mapM (readInt 10)).reverse)
      else readInt 10 digits
  return if negative then -magnitude else magnitude

/-! ## Floating-point numbers -/

def readDecimal? (text : Text) : Option Binary64 :=
  let (negative, unsigned) := Decimal.cutSign (Text.trimBoth Decimal.isNumberBlank text)
  let whole := unsigned.takeWhile Text.isDigit
  let rest := unsigned.drop whole.length
  let (fraction, rest) :=
    match rest with
    | '.' :: rest => (rest.takeWhile Text.isDigit, rest.dropWhile Text.isDigit)
    | _ => ([], rest)
  let exponent? : Option Int :=
    match rest with
    | [] => some 0
    | e :: rest =>
      let (negative, digits) := Decimal.cutSign rest
      if (e == 'e' || e == 'E') && !digits.isEmpty && digits.all Text.isDigit then
        some (Decimal.applySign negative (Text.digitsValue digits))
      else none
  if (whole ++ fraction).isEmpty then none
  else
    exponent?.map fun exponent =>
      Binary64.ofDecimal negative (Text.digitsValue (whole ++ fraction))
        (exponent - (fraction.length : Int))

def readFloat (text : Text) : Except Failure Binary64 :=
  let trimmed := Text.trimBoth Decimal.isNumberBlank text
  let (negative, unsigned) := Decimal.cutSign trimmed
  let word := Text.lower unsigned
  if word = "inf".toList || word = "infinity".toList then .ok (.infinite negative)
  else if word = "nan".toList then .ok (.nan 0)
  else
    match readDecimal? text with
    | some x => .ok x
    | none => .error (.invalidValue ("could not convert string to float: " ++ Text.quote text))

def sixtiethsSum (unit : Nat) (sum : Binary64) : List Binary64 → Except Failure Binary64
  | [] => .ok sum
  | part :: rest =>
    let factor := Binary64.ofInt unit
    if factor.isInfinite then .error .outOfRange
    else sixtiethsSum (unit * 60) (sum.add (part.mul factor)) rest

def withPayload (payload : Nat) : Binary64 → Binary64
  | .nan _ => .nan payload
  | x => x

def floatValue (payload : Nat) (text : Text) : Except Failure Binary64 := do
  let (negative, digits) ← signed (Text.lower (withoutLows text))
  let applySign (x : Binary64) : Binary64 := if negative then x.neg else x
  if digits = ".inf".toList then return .infinite negative
  else if digits = ".nan".toList then return .nan 0
  else if digits.contains ':' then
    let parts ← (digits.splitOn ':').mapM readFloat
    return applySign (withPayload payload (← sixtiethsSum 1 (Binary64.zeroOf false) parts.reverse))
  else return applySign (withPayload payload (← readFloat digits))

/-! ## Dates and times -/

def numberOf (digits : Text) : Nat :=
  Text.digitsValue digits

def millionths (fraction : Text) : Nat :=
  let digits := fraction.take 6
  numberOf (digits ++ List.replicate (6 - digits.length) '0')

def timestampValue (form : TimestampForm) : Except Failure Value := do
  let date : Date :=
    { year := numberOf form.year, month := numberOf form.month, day := numberOf form.day }
  match form.clock with
  | none =>
    match date.fault? with
    | some fault => throw (.invalidValue fault)
    | none => return .date date
  | some (hour, minute, second, fraction) =>
    let offset := form.offset.map fun (negative, hours, minutes) =>
      Decimal.applySign negative (numberOf hours * 60 + numberOf minutes)
    if offset.any fun minutes => 1440 ≤ minutes.natAbs then
      throw (.invalidValue ("offset must be a timedelta strictly between " ++
        "-timedelta(hours=24) and timedelta(hours=24), not " ++
        Moment.quotedDelta (offset.getD 0) ++ "."))
    let moment : Moment :=
      { date
        hour := numberOf hour
        minute := numberOf minute
        second := numberOf second
        microsecond := millionths fraction
        offset }
    match moment.fault? with
    | some fault => throw (.invalidValue fault)
    | none => return .moment moment

/-! ## All scalars -/

def trueWords : List Text :=
  ["yes".toList, "true".toList, "on".toList]

def falseWords : List Text :=
  ["no".toList, "false".toList, "off".toList]

def scalarValue (payload : Nat) (tag : Tag) (text : Text) : Except Failure Value :=
  match tag with
  | .null => .ok .null
  | .bool =>
    let word := Text.lower text
    if trueWords.contains word then .ok (.bool true)
    else if falseWords.contains word then .ok (.bool false)
    else .error .unknownWord
  | .int => (intValue text).map .int
  | .float => (floatValue payload text).map .float
  | .text => .ok (.text text)
  | .timestamp =>
    match TimestampForm.parse? (withoutLastBreak text) with
    | some form => timestampValue form
    | none => .error .noMapping
  | .binary =>
    if text.any fun c => 128 ≤ c.toNat then .error .yaml
    else
      match Base64.decode? text with
      | some bytes => .ok (.bytes bytes)
      | none => .error .yaml
  | _ => .error .yaml

end Yaml
end Transclusion
