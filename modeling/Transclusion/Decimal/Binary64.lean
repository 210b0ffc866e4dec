import Transclusion.Text.Basic

/-!
This module contains binary floating-point numbers of double precision as exact values: `rounded`
gives the double nearest to a fraction, so that reading decimals, adding and multiplying are each
one exact operation on fractions followed by one rounding.
-/

namespace Transclusion

/-- A double. The finite ones are `± mantissa * 2 ^ exponent`, with a mantissa below `2 ^ 53`;
values that are no numbers are told apart by a payload alone. -/
inductive Binary64
  | nan (payload : Nat)
  | infinite (negative : Bool)
  | finite (negative : Bool) (mantissa : Nat) (exponent : Int)
  deriving DecidableEq, Repr

namespace Binary64

def minExponent : Int := -1074

def maxExponent : Int := 971

def zeroOf (negative : Bool) : Binary64 :=
  .finite negative 0 minExponent

def mantissaBound : Nat := 0x20000000000000

def power (base : Nat) (exponent : Int) : Nat × Nat :=
  if 0 ≤ exponent then (Nat.pow base exponent.toNat, 1) else (1, Nat.pow base exponent.natAbs)

def scale (num den : Nat) (exponent : Int) : Nat × Nat :=
  let (p, q) := power 2 exponent
  (num * p, den * q)

def divNearest (num den : Nat) : Nat :=
  let q := num / den
  let r := num % den
  if 2 * r < den then q
  else if den < 2 * r then q + 1
  else q + q % 2

/-- The double nearest to `num / den`; a half goes to the even mantissa, and what lies beyond the
greatest finite double by half a unit or more is infinite. -/
def rounded (negative : Bool) (num den : Nat) : Binary64 :=
  if num = 0 then zeroOf negative
  else
    let guess : Int := (num.log2 : Int) - den.log2 - 53
    let (n, d) := scale num den (-guess)
    let fitting := if n / d < mantissaBound then guess else guess + 1
    let exponent := max fitting minExponent
    let (n, d) := scale num den (-exponent)
    let mantissa := divNearest n d
    let (mantissa, exponent) :=
      if mantissa = mantissaBound then (mantissaBound / 2, exponent + 1) else (mantissa, exponent)
    if maxExponent < exponent then .infinite negative else .finite negative mantissa exponent

def ofDecimal (negative : Bool) (digits : Nat) (exponent : Int) : Binary64 :=
  if digits = 0 then zeroOf negative
  else
    let size := (Text.ofNat digits).length + exponent
    if 310 < size then .infinite negative
    else if size < -330 then zeroOf negative
    else
      let (p, q) := power 10 exponent
      rounded negative (digits * p) q

def ofInt (n : Int) : Binary64 :=
  rounded (n < 0) n.natAbs 1

def fraction? : Binary64 → Option (Int × Nat)
  | .finite negative mantissa exponent =>
    let (n, d) := scale mantissa 1 exponent
    some (if negative then -(n : Int) else n, d)
  | _ => none

def add : Binary64 → Binary64 → Binary64
  | .nan payload, _ | _, .nan payload => .nan payload
  | .infinite a, .infinite b => if a = b then .infinite a else .nan 0
  | .infinite a, _ | _, .infinite a => .infinite a
  | .finite a m e, .finite b n f =>
    let low := min e f
    let signed (negative : Bool) (k : Nat) : Int := if negative then -(k : Int) else k
    let total := signed a (scale m 1 (e - low)).1 + signed b (scale n 1 (f - low)).1
    if total = 0 then zeroOf (a && b)
    else
      let (num, den) := scale total.natAbs 1 low
      rounded (total < 0) num den

def mul : Binary64 → Binary64 → Binary64
  | .nan payload, _ | _, .nan payload => .nan payload
  | .infinite a, .infinite b => .infinite (a != b)
  | .infinite a, .finite b n _ | .finite b n _, .infinite a =>
    if n = 0 then .nan 0 else .infinite (a != b)
  | .finite a m e, .finite b n f =>
    let (num, den) := scale (m * n) 1 (e + f)
    rounded (a != b) num den

def neg : Binary64 → Binary64
  | .nan payload => .nan payload
  | .infinite negative => .infinite (!negative)
  | .finite negative m e => .finite (!negative) m e

def truncate? : Binary64 → Option Int
  | x => x.fraction?.map fun (n, d) => n.tdiv d

def isZero : Binary64 → Bool
  | .finite _ m _ => m == 0
  | _ => false

def eqInt (x : Binary64) (n : Int) : Bool :=
  match x.fraction? with
  | some (num, den) => num == n * den
  | none => false

def isInfinite : Binary64 → Bool
  | .infinite _ => true
  | _ => false

def eqv : Binary64 → Binary64 → Bool
  | .infinite a, .infinite b => a == b
  | .finite a m e, .finite b n f => (m == 0 && n == 0) || (a == b && m == n && e == f)
  | _, _ => false

end Binary64
end Transclusion
