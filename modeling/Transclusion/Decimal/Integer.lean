import Transclusion.Text.Blank
import Transclusion.Text.Digit

/-!
This module contains the reading of integers, in decimal or to another base. The digits may be of
any script, may have single underscores between them, and may stand between blanks; the information
separators do not count as blanks here.
-/

namespace Transclusion
namespace Decimal

def isNumberBlank (c : Char) : Bool :=
  Text.isBlank c && !(28 ≤ c.toNat && c.toNat ≤ 31)

def cutSign : Text → Bool × Text
  | '-' :: rest => (true, rest)
  | '+' :: rest => (false, rest)
  | text => (false, text)

def applySign (negative : Bool) (n : Nat) : Int :=
  if negative then -(n : Int) else n

def digitIn? (base : Nat) (c : Char) : Option Nat :=
  let value? :=
    if c.isAlpha then some (c.toLower.toNat - 87) else Text.digitValue? c
  value?.filter (· < base)

def baseLetter? : Nat → Option Char
  | 2 => some 'b'
  | 8 => some 'o'
  | 16 => some 'x'
  | _ => none

def withoutBase (base : Nat) (digits : Text) : Text :=
  match digits with
  | '0' :: letter :: rest =>
    if baseLetter? base = some letter.toLower then
      match rest with
      | '_' :: rest => rest
      | _ => rest
    else digits
  | _ => digits

def valueIn (base : Nat) (digits : Text) : Nat :=
  digits.foldl (fun n c => base * n + (digitIn? base c).getD 0) 0

def readIn? (base : Nat) (text : Text) : Option Int :=
  let (negative, unsigned) := cutSign (Text.trimBoth isNumberBlank text)
  let digits := withoutBase base unsigned
  let isGroup (group : Text) : Bool :=
    !group.isEmpty && group.all fun c => (digitIn? base c).isSome
  if (digits.splitOn '_').all isGroup then
    some (applySign negative (valueIn base (digits.filter (· != '_'))))
  else none

def readInt? (text : Text) : Option Int :=
  readIn? 10 text

end Decimal
end Transclusion
