import Transclusion.Decimal.Integer
import Transclusion.Json.Fault
import Transclusion.Text.Surrogates
import Transclusion.Value.Basic

/-!
This module contains the reading of JSON texts. Beyond the standard it accepts `NaN`, `Infinity` and
`-Infinity`; of entries with one name the last value counts, at the place of the first. Inside the
reader a place is the number of characters that are left there.
-/

namespace Transclusion
namespace Json

variable [Surrogates]

structure Stop where
  problem : Problem
  left : Nat
  deriving DecidableEq, Repr

abbrev Reader (α : Type) := Text → Except Stop (α × Text)

def stopAt {α : Type} (problem : Problem) (text : Text) : Except Stop α :=
  .error { problem, left := text.length }

def isJsonBlank (c : Char) : Bool :=
  c == ' ' || c == '\t' || c == '\n' || c == '\r'

def skipBlanks (text : Text) : Text :=
  text.dropWhile isJsonBlank

def hexDigit? (c : Char) : Option Nat :=
  if c.isDigit then some (c.toNat - 48)
  else if 'a' ≤ c && c ≤ 'f' then some (c.toNat - 87)
  else if 'A' ≤ c && c ≤ 'F' then some (c.toNat - 55)
  else none

def hexValue? (digits : Text) : Option Nat :=
  digits.foldl (fun n c => do return 16 * (← n) + (← hexDigit? c)) (some 0)

def unicodeEscape? (text : Text) : Option (Nat × Text) :=
  if (text.drop 4).isEmpty then none else (hexValue? (text.take 4)).map (·, text.drop 4)

def isHighSurrogate (n : Nat) : Bool :=
  0xd800 ≤ n && n ≤ 0xdbff

def isLowSurrogate (n : Nat) : Bool :=
  0xdc00 ≤ n && n ≤ 0xdfff

def charOfCode (n : Nat) : Char :=
  if isSurrogate n then Surrogates.standIn n else Char.ofNat n

def simpleEscape? : Char → Option Char
  | '"' => some '"'
  | '\\' => some '\\'
  | '/' => some '/'
  | 'b' => some '\x08'
  | 'f' => some '\x0c'
  | 'n' => some '\n'
  | 'r' => some '\r'
  | 't' => some '\t'
  | _ => none

def escape (afterSlash : Text) : Except Stop (Char × Text) :=
  match afterSlash with
  | [] => stopAt .unterminatedString []
  | 'u' :: digits =>
    match unicodeEscape? digits with
    | none => stopAt .invalidUnicodeEscape afterSlash
    | some (high, rest) =>
      match rest with
      | '\\' :: 'u' :: digits' =>
        if isHighSurrogate high && !(digits'.drop 4).isEmpty then
          match unicodeEscape? digits' with
          | none => stopAt .invalidUnicodeEscape ('u' :: digits')
          | some (low, rest') =>
            if isLowSurrogate low then
              .ok (Char.ofNat (0x10000 + (high - 0xd800) * 0x400 + (low - 0xdc00)), rest')
            else .ok (charOfCode high, rest)
        else .ok (charOfCode high, rest)
      | _ => .ok (charOfCode high, rest)
  | c :: rest =>
    match simpleEscape? c with
    | some c => .ok (c, rest)
    | none => .error { problem := .invalidEscape, left := afterSlash.length + 1 }

/-- The rest of a string whose opening quote stood where `start` characters were left. The fuel
bounds the number of characters. -/
def stringTail (start : Nat) : Nat → Reader Text
  | 0, _ => .error { problem := .unterminatedString, left := start }
  | fuel + 1, text =>
    match text with
    | [] => .error { problem := .unterminatedString, left := start }
    | '"' :: rest => .ok ([], rest)
    | '\\' :: [] => .error { problem := .unterminatedString, left := start }
    | '\\' :: afterSlash => do
      let (c, rest) ← escape afterSlash
      let (tail, rest) ← stringTail start fuel rest
      return (c :: tail, rest)
    | c :: rest =>
      if c.toNat < 32 then stopAt .controlCharacter text
      else do
        let (tail, rest) ← stringTail start fuel rest
        return (c :: tail, rest)

def string : Reader Text
  | text => stringTail (text.length + 1) (text.length + 1) text

def takeDigits (text : Text) : Text × Text :=
  (text.takeWhile Char.isDigit, text.dropWhile Char.isDigit)

def fraction? : Text → Option (Text × Text)
  | '.' :: rest =>
    let (digits, rest) := takeDigits rest
    if digits.isEmpty then none else some (digits, rest)
  | _ => none

def exponent? : Text → Option (Int × Text)
  | c :: rest =>
    if c == 'e' || c == 'E' then
      let (negative, unsigned) := Decimal.cutSign rest
      let (digits, rest) := takeDigits unsigned
      if digits.isEmpty then none
      else some (Decimal.applySign negative (Text.digitsValue digits), rest)
    else none
  | [] => none

def wholeDigits? : Text → Option (Text × Text)
  | '0' :: rest => some (['0'], rest)
  | text =>
    let (digits, rest) := takeDigits text
    if digits.isEmpty then none else some (digits, rest)

def number? (text : Text) : Option (Value × Text) := do
  let (negative, unsigned) :=
    match text with
    | '-' :: rest => (true, rest)
    | _ => (false, text)
  let (whole, rest) ← wholeDigits? unsigned
  let (fraction, afterFraction) := (fraction? rest).getD ([], rest)
  let (exponent, afterExponent) :=
    match exponent? afterFraction with
    | some (exponent, rest) => (some exponent, rest)
    | none => (none, afterFraction)
  if fraction.isEmpty && exponent.isNone then
    some (.int (Decimal.applySign negative (Text.digitsValue whole)), rest)
  else
    let digits := Text.digitsValue (whole ++ fraction)
    let power := exponent.getD 0 - (fraction.length : Int)
    some (.float (Binary64.ofDecimal negative digits power), afterExponent)

def words : List (Text × Value) :=
  [("null", .null), ("true", .bool true), ("false", .bool false), ("NaN", .float (.nan 0)),
    ("Infinity", .float (.infinite false)), ("-Infinity", .float (.infinite true))]

def word? (text : Text) : Option (Value × Text) :=
  words.findSome? fun (word, value) => (word.isPrefixOf? text).map (value, ·)

def scalar : Reader Value
  | text =>
    match word? text with
    | some result => .ok result
    | none =>
      match number? text with
      | some result => .ok result
      | none => stopAt .expectingValue text

mutual

def value : Nat → Reader Value
  | 0, text => stopAt .expectingValue text
  | fuel + 1, text =>
    match text with
    | '"' :: rest => do
      let (t, rest) ← string rest
      return (.text t, rest)
    | '[' :: rest =>
      match skipBlanks rest with
      | ']' :: rest => .ok (.list [], rest)
      | rest => do
        let (items, rest) ← items fuel rest
        return (.list items, rest)
    | '\x7b' :: rest =>
      match skipBlanks rest with
      | '\x7d' :: rest => .ok (.map [], rest)
      | rest => do
        let (entries, rest) ← entries fuel rest
        return (.map (Value.assign entries), rest)
    | _ => scalar text

def items : Nat → Reader (List Value)
  | 0, text => stopAt .expectingValue text
  | fuel + 1, text => do
    let (item, rest) ← value fuel text
    match skipBlanks rest with
    | ']' :: rest => return ([item], rest)
    | ',' :: rest =>
      let (items, rest) ← items fuel (skipBlanks rest)
      return (item :: items, rest)
    | rest => stopAt .expectingComma rest

def entries : Nat → Reader (List (Value × Value))
  | 0, text => stopAt .expectingName text
  | fuel + 1, text => do
    match text with
    | '"' :: rest =>
      let (name, rest) ← string rest
      match skipBlanks rest with
      | ':' :: rest =>
        let (value, rest) ← value fuel (skipBlanks rest)
        match skipBlanks rest with
        | '\x7d' :: rest => return ([(.text name, value)], rest)
        | ',' :: rest =>
          let (entries, rest) ← entries fuel (skipBlanks rest)
          return ((.text name, value) :: entries, rest)
        | rest => stopAt .expectingComma rest
      | rest => stopAt .expectingColon rest
    | _ => stopAt .expectingName text

end

def read (text : Text) : Except Fault Value :=
  match text with
  | '\ufeff' :: _ => .error (Fault.at text .byteOrderMark 0)
  | _ =>
    match value (2 * text.length + 2) (skipBlanks text) with
    | .error stop => .error (Fault.at text stop.problem (text.length - stop.left))
    | .ok (value, rest) =>
      match skipBlanks rest with
      | [] => .ok value
      | rest => .error (Fault.at text .extraData (text.length - rest.length))

end Json
end Transclusion
