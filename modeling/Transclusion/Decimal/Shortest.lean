import Transclusion.Decimal.Binary64

/-!
This module contains the decimal text of a double: the fewest digits that read back as the same
double, and of those the nearest. Exponents from -4 to 15 are written positionally.
-/

namespace Transclusion
namespace Binary64

structure Digits where
  digits : Nat
  point : Int
  deriving DecidableEq, Repr

/-- The positive number `mantissa * 2 ^ exponent` and the interval of numbers that round to it, all
in units of a quarter of the last place. -/
structure Interval where
  value : Nat
  low : Nat
  high : Nat
  closed : Bool

def interval (mantissa : Nat) (exponent : Int) : Interval where
  value := 4 * mantissa
  low :=
    if mantissa = mantissaBound / 2 && minExponent < exponent then 4 * mantissa - 1
    else 4 * mantissa - 2
  high := 4 * mantissa + 2
  closed := mantissa % 2 == 0

def belowPower (num den : Nat) (k : Int) : Bool :=
  let (p, q) := power 10 k
  num * q < den * p

def decimalPoint (num den : Nat) : Int :=
  let guess : Int := (Text.ofNat num).length - (Text.ofNat den).length
  if belowPower num den guess then guess else guess + 1

def candidates (i : Interval) (num den : Nat) (point : Int) (count : Nat) : List Nat :=
  -- One step of the decimal grid, `10 ^ (point - count)`, is `gridNum / gridDen`.
  let (gridNum, gridDen) := power 10 (point - count)
  -- `d * gridNum / gridDen` against `x * num / den`
  let below := i.value * num * gridDen / (den * gridNum)
  let fits (d : Nat) : Bool :=
    let a := d * gridNum * den
    let lo := i.low * num * gridDen
    let hi := i.high * num * gridDen
    if i.closed then lo ≤ a && a ≤ hi else lo < a && a < hi
  [below, below + 1].filter fun d => d != 0 && fits d

def nearest (i : Interval) (num den : Nat) (point : Int) (count : Nat) : Option Nat :=
  match candidates i num den point count with
  | [] => none
  | [d] => some d
  | d :: d' :: _ =>
    let (gridNum, gridDen) := power 10 (point - count)
    let v := i.value * num * gridDen
    let left := v - d * gridNum * den
    let right := d' * gridNum * den - v
    some (if left < right then d else if right < left then d' else if d % 2 = 0 then d else d')

def shortestDigits (mantissa : Nat) (exponent : Int) : Digits :=
  let i := interval mantissa exponent
  let (num, den) := scale 1 1 (exponent - 2)
  let point := decimalPoint (i.value * num) den
  match (List.range 17).findSome? fun n => (nearest i num den point (n + 1)).map (n + 1, ·) with
  | some (count, digits) =>
    -- Rounding up may have reached the next power of ten.
    let point := point + ((Text.ofNat digits).length - count : Int)
    { digits, point }
  | none => { digits := mantissa, point }

def trimZeros (digits : Text) : Text :=
  (digits.reverse.dropWhile (· == '0')).reverse

def exponentText (n : Int) : Text :=
  (if n < 0 then "e-" else "e+") ++ Text.ofNatPadded 2 n.natAbs

def digitsText (d : Digits) : Text :=
  let digits := trimZeros (Text.ofNat d.digits)
  if -4 < d.point && d.point ≤ 16 then
    if d.point ≤ 0 then "0." ++ List.replicate d.point.natAbs '0' ++ digits
    else
      let whole := d.point.toNat
      if digits.length ≤ whole then digits ++ List.replicate (whole - digits.length) '0' ++ ".0"
      else digits.take whole ++ "." ++ digits.drop whole
  else
    let tail := digits.drop 1
    digits.take 1 ++ (if tail.isEmpty then [] else '.' :: tail) ++ exponentText (d.point - 1)

def text : Binary64 → Text
  | .nan _ => "nan"
  | .infinite negative => if negative then "-inf" else "inf"
  | .finite negative mantissa exponent =>
    let magnitude : Text :=
      if mantissa = 0 then "0.0" else digitsText (shortestDigits mantissa exponent)
    if negative then '-' :: magnitude else magnitude

end Binary64
end Transclusion
