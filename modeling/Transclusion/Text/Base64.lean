import Transclusion.Text.Basic

/-!
This module contains the reading of bytes that are written to the base 64. Characters that are no
digits are passed over; where a group of four ends early, signs of equality fill it up and end the
text.
-/

namespace Transclusion
namespace Base64

def digit? (c : Char) : Option Nat :=
  if c.isUpper then some (c.toNat - 65)
  else if c.isLower then some (c.toNat - 71)
  else if c.isDigit then some (c.toNat + 4)
  else if c == '+' then some 62
  else if c == '/' then some 63
  else none

def groupBytes : List Nat → List UInt8
  | [a, b] => [UInt8.ofNat (a * 4 + b / 16)]
  | [a, b, c] => [UInt8.ofNat (a * 4 + b / 16), UInt8.ofNat (b * 16 + c / 4)]
  | [a, b, c, d] =>
    [UInt8.ofNat (a * 4 + b / 16), UInt8.ofNat (b * 16 + c / 4), UInt8.ofNat (c * 64 + d)]
  | _ => []

def bytesFrom (group : List Nat) (pads : Nat) : Text → Option (List UInt8)
  | [] => if group.isEmpty then some [] else none
  | c :: rest =>
    if c == '=' then
      if group.length < 2 then bytesFrom group pads rest
      else if 4 ≤ group.length + pads + 1 then some (groupBytes group)
      else bytesFrom group (pads + 1) rest
    else
      match digit? c with
      | none => bytesFrom group pads rest
      | some digit =>
        let group := group ++ [digit]
        if group.length < 4 then bytesFrom group 0 rest
        else (bytesFrom [] 0 rest).map (groupBytes group ++ ·)

def decode? (text : Text) : Option (List UInt8) :=
  bytesFrom [] 0 text

end Base64
end Transclusion
