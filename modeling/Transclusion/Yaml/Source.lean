import Transclusion.Yaml.Cursor

/-!
This module contains YAML texts as they come from a file: in blocks of characters, of which each is
refused as a whole if something in it cannot be read. What comes before is read nevertheless, so
that a fault there is met first.
-/

namespace Transclusion
namespace Yaml

structure Source where
  text : Text
  beyond : Option Failure := none

namespace Source

def blockSize : Nat := 4096

def chunkSize : Nat := 8192

/-- Where the block begins that has the character with the given index. The first two blocks are
read together. -/
def blockStart (index : Nat) : Nat :=
  let block := index / blockSize
  if block < 2 then 0 else block * blockSize

def ofText (text : Text) : Source :=
  match text.findIdx? (!isAllowed ·) with
  | some index => { text := text.take (blockStart index), beyond := some .yaml }
  | none => { text }

def decodedBefore (bytes : List UInt8) (left : Nat) : List UInt8 :=
  if left = 0 then bytes
  else bytes.take ((bytes.length - left) / chunkSize * chunkSize)

def ofBytes (bytes : List UInt8) : Source :=
  match Utf8.decodePart bytes with
  | (text, none) => ofText (Utf8.normalizeBreaks text)
  | (_, some (fault, left)) =>
    let text := (Utf8.decodePart (decodedBefore bytes left)).1
    let text := if text.getLast? == some '\r' then text.dropLast else text
    let text := Utf8.normalizeBreaks text
    let source := ofText (text.take (blockStart text.length))
    { source with beyond := source.beyond <|> some (.notUtf8 fault) }

def start (s : Source) : Except Failure Cursor := do
  let c ← Cursor.settled { rest := s.text, beyond := s.beyond }
  return if c.nextIs (· == '\ufeff') then c.next else c

end Source
end Yaml
end Transclusion
