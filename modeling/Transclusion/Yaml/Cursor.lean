import Transclusion.Failure

/-!
This module contains places in a YAML text: the characters to come, and the line and column that
decide about indentation.
-/

namespace Transclusion
namespace Yaml

def isBreak (c : Char) : Bool :=
  c == '\n' || c == '\r' || c == '\x85' || c == '\u2028' || c == '\u2029'

def isBlank (c : Char) : Bool :=
  c == ' ' || c == '\t' || isBreak c

def isAllowed (c : Char) : Bool :=
  let n := c.toNat
  n == 9 || n == 10 || n == 13 || (0x20 ≤ n && n ≤ 0x7e) || n == 0x85 ||
    (0xa0 ≤ n && n ≤ 0xd7ff) || (0xe000 ≤ n && n ≤ 0xfffd) || 0x10000 ≤ n

def isNameChar (c : Char) : Bool :=
  c.isAlphanum || c == '-' || c == '_'

structure Cursor where
  rest : Text
  index : Nat := 0
  line : Nat := 0
  column : Nat := 0
  beyond : Option Failure := none

namespace Cursor

def shortage (c : Cursor) : Failure :=
  c.beyond.getD .yaml

def settled (c : Cursor) : Except Failure Cursor :=
  match c.beyond with
  | some failure => if c.rest.isEmpty then .error failure else .ok c
  | none => .ok c

def peek (c : Cursor) : Option Char :=
  c.rest.head?

def peekAt (c : Cursor) (n : Nat) : Option Char :=
  c.rest[n]?

def nextIs (c : Cursor) (p : Char → Bool) : Bool :=
  c.peek.any p

def nextIsOrEnd (c : Cursor) (p : Char → Bool) : Bool :=
  c.peek.all p

def isOrEndAt (c : Cursor) (n : Nat) (p : Char → Bool) : Bool :=
  (c.peekAt n).all p

def next (c : Cursor) : Cursor :=
  match c.rest with
  | [] => c
  | ch :: rest =>
    let ends := isBreak ch && !(ch == '\r' && rest.head? == some '\n')
    { c with
      rest
      index := c.index + 1
      line := if ends then c.line + 1 else c.line
      column := if ends then 0 else if ch == '\ufeff' then c.column else c.column + 1 }

def advance : Nat → Cursor → Cursor
  | 0, c => c
  | n + 1, c => advance n c.next

def takeWhile (p : Char → Bool) (c : Cursor) : Text × Cursor :=
  let taken := c.rest.takeWhile p
  (taken, c.advance taken.length)

def dropWhile (p : Char → Bool) (c : Cursor) : Cursor :=
  (c.takeWhile p).2

def skipSpaces (c : Cursor) : Cursor :=
  c.dropWhile (· == ' ')

def skipLine (c : Cursor) : Cursor :=
  c.dropWhile (!isBreak ·)

def lineBreak (c : Cursor) : Text × Cursor :=
  match c.rest with
  | '\r' :: '\n' :: _ => (['\n'], c.advance 2)
  | ch :: _ =>
    if ch == '\u2028' || ch == '\u2029' then ([ch], c.next)
    else if isBreak ch then (['\n'], c.next)
    else ([], c)
  | [] => ([], c)

def isMarker (ch : Char) (c : Cursor) : Bool :=
  [ch, ch, ch].isPrefixOf c.rest && c.isOrEndAt 3 isBlank

def isDocumentMarker (c : Cursor) : Bool :=
  c.isMarker '-' || c.isMarker '.'

def endOfLine? (c : Cursor) : Option Cursor :=
  let c := c.skipSpaces
  let c := if c.nextIs (· == '#') then c.skipLine else c
  if c.nextIsOrEnd isBreak then some c.lineBreak.2 else none

end Cursor
end Yaml
end Transclusion
