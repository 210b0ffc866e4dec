import Transclusion.Text.Basic

/-!
This module contains the faults of JSON texts: what is wrong and where.
-/

namespace Transclusion
namespace Json

inductive Problem
  | expectingValue
  | expectingName
  | expectingColon
  | expectingComma
  | extraData
  | unterminatedString
  | controlCharacter
  | invalidEscape
  | invalidUnicodeEscape
  | byteOrderMark
  deriving DecidableEq, Repr

def Problem.message : Problem → Text
  | .expectingValue => "Expecting value"
  | .expectingName => "Expecting property name enclosed in double quotes"
  | .expectingColon => "Expecting ':' delimiter"
  | .expectingComma => "Expecting ',' delimiter"
  | .extraData => "Extra data"
  | .unterminatedString => "Unterminated string starting at"
  | .controlCharacter => "Invalid control character at"
  | .invalidEscape => "Invalid \\escape"
  | .invalidUnicodeEscape => "Invalid \\uXXXX escape"
  | .byteOrderMark => "Unexpected UTF-8 BOM (decode using utf-8-sig)"

structure Fault where
  problem : Problem
  line : Nat
  column : Nat
  offset : Nat
  deriving DecidableEq, Repr

def Fault.at (text : Text) (problem : Problem) (offset : Nat) : Fault :=
  let before := text.take offset
  { problem
    line := before.count '\n' + 1
    column := (before.reverse.takeWhile (· != '\n')).length + 1
    offset }

def Fault.message (f : Fault) : Text :=
  f.problem.message ++ ": line " ++ Text.ofNat f.line ++ " column " ++ Text.ofNat f.column ++
    " (char " ++ Text.ofNat f.offset ++ ")"

end Json
end Transclusion
