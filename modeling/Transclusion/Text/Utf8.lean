import Transclusion.Text.Basic

/-!
This module contains the UTF-8 form of texts. Reading is strict: overlong forms, surrogates and
truncated sequences are faults. Reading a file as text also makes every line break a line feed.
-/

namespace Transclusion
namespace Utf8

inductive Fault
  | invalidStart
  | invalidContinuation
  | unexpectedEnd
  deriving DecidableEq, Repr

def Fault.message : Fault → Text
  | .invalidStart => "invalid start byte"
  | .invalidContinuation => "invalid continuation byte"
  | .unexpectedEnd => "unexpected end of data"

def encode (text : Text) : List UInt8 :=
  text.flatMap String.utf8EncodeChar

structure Pending where
  more : Nat
  bits : Nat
  lo : Nat
  hi : Nat

def start? (b : Nat) : Option Pending :=
  if b < 0xc2 then none
  else if b < 0xe0 then some ⟨0, b - 0xc0, 0x80, 0xbf⟩
  else if b < 0xf0 then
    some ⟨1, b - 0xe0, if b = 0xe0 then 0xa0 else 0x80, if b = 0xed then 0x9f else 0xbf⟩
  else if b < 0xf5 then
    some ⟨2, b - 0xf0, if b = 0xf0 then 0x90 else 0x80, if b = 0xf4 then 0x8f else 0xbf⟩
  else none

def decodePart (bytes : List UInt8) : Text × Option (Fault × Nat) :=
  go none bytes
where
  go : Option Pending → List UInt8 → Text × Option (Fault × Nat)
    | none, [] => ([], none)
    | some _, [] => ([], some (.unexpectedEnd, 0))
    | none, b :: rest =>
      if b.toNat < 0x80 then
        let (text, fault?) := go none rest
        (Char.ofNat b.toNat :: text, fault?)
      else
        match start? b.toNat with
        | none => ([], some (.invalidStart, rest.length + 1))
        | some pending => go (some pending) rest
    | some ⟨more, bits, lo, hi⟩, b :: rest =>
      if lo ≤ b.toNat && b.toNat ≤ hi then
        let bits := bits * 64 + (b.toNat - 0x80)
        match more with
        | 0 =>
          let (text, fault?) := go none rest
          (Char.ofNat bits :: text, fault?)
        | more + 1 => go (some ⟨more, bits, 0x80, 0xbf⟩) rest
      else ([], some (.invalidContinuation, rest.length + 1))

def decode (bytes : List UInt8) : Except Fault Text :=
  match decodePart bytes with
  | (text, none) => .ok text
  | (_, some (fault, _)) => .error fault

def normalizeBreaks : Text → Text
  | [] => []
  | '\r' :: '\n' :: rest => '\n' :: normalizeBreaks rest
  | '\r' :: rest => '\n' :: normalizeBreaks rest
  | c :: rest => c :: normalizeBreaks rest

def decodeLines (bytes : List UInt8) : Except Fault Text :=
  (decode bytes).map normalizeBreaks

end Utf8
end Transclusion
