import Transclusion.Value.Basic

/-!
This module contains the order in which members that are numbers show. They stand in a table: each
at the place that its residue asks for, or at one that is free from there. Where a member is no
number the members keep the order in which they came.
-/

namespace Transclusion
namespace Members

def modulus : Nat := 0x1fffffffffffffff

/-- The residue of `± mantissa * 2 ^ exponent`. Equal numbers have equal residues, whatever their
kind, since `2 ^ 61` leaves one. No residue is `-1`. -/
def residueOf (negative : Bool) (mantissa : Nat) (exponent : Int) : Int :=
  let size : Int := mantissa * Nat.pow 2 (exponent.emod 61).toNat % modulus
  let signed := if negative then -size else size
  if signed = -1 then -2 else signed

def residue? : Value → Option Int
  | .float (.finite negative mantissa exponent) => some (residueOf negative mantissa exponent)
  | .float (.infinite negative) => some (if negative then -314159 else 314159)
  | value => value.integer?.map fun n => residueOf (n < 0) n.natAbs 0

def places (count : Nat) : Nat :=
  if count < 5 then 8 else Nat.pow 2 ((2 * count).log2 + 1)

def freePlace? (free : Nat → Bool) (size : Nat) : Nat → Nat → Nat → Option Nat
  | 0, _, _ => none
  | fuel + 1, place, bits =>
    match (List.range' place (if place + 9 < size then 10 else 1)).find? free with
    | some found => some found
    | none => freePlace? free size fuel ((5 * place + 1 + bits / 32) % size) (bits / 32)

def put (table : Array (Option Value)) (member : Value) (residue : Int) : Array (Option Value) :=
  let bits := (residue.emod 0x10000000000000000).toNat
  let free (place : Nat) : Bool := table[place]?.join.isNone
  match freePlace? free table.size (table.size + 13) (bits % table.size) bits with
  | some place => table.setIfInBounds place (some member)
  | none => table

def ordered (members : List Value) : List Value :=
  match members.mapM residue? with
  | none => members
  | some residues =>
    let empty : Array (Option Value) := Array.replicate (places members.length) none
    let table := (members.zip residues).foldl (fun table (member, r) => put table member r) empty
    table.toList.filterMap id

end Members
end Transclusion
