import Transclusion.Json.Reader
import Transclusion.Yaml.Cursor

/-!
This module contains the texts of quoted scalars. Line breaks in them are folded: one becomes a
space, of several the first is dropped.
-/

namespace Transclusion
namespace Yaml

variable [Surrogates]

def simpleEscape? : Char → Option Char
  | '0' => some '\x00'
  | 'a' => some '\x07'
  | 'b' => some '\x08'
  | 't' | '\t' => some '\t'
  | 'n' => some '\n'
  | 'v' => some '\x0b'
  | 'f' => some '\x0c'
  | 'r' => some '\r'
  | 'e' => some '\x1b'
  | ' ' => some ' '
  | '"' => some '"'
  | '\\' => some '\\'
  | '/' => some '/'
  | 'N' => some '\x85'
  | '_' => some '\xa0'
  | 'L' => some '\u2028'
  | 'P' => some '\u2029'
  | _ => none

def codeLength? : Char → Option Nat
  | 'x' => some 2
  | 'u' => some 4
  | 'U' => some 8
  | _ => none

def charOfCode (code : Nat) : Except Failure Char :=
  if code < 0x110000 then .ok (Json.charOfCode code)
  else if code < 0x80000000 then .error (.invalidValue "chr() arg not in range(0x110000)")
  else .error .outOfRange

def quotedBreaks : Nat → Cursor → Except Failure (Text × Cursor)
  | 0, _ => .error .yaml
  | fuel + 1, c =>
    if c.isDocumentMarker then .error .yaml
    else do
      let c := c.dropWhile fun ch => ch == ' ' || ch == '\t'
      if c.nextIs isBreak then
        let (first, c) := c.lineBreak
        let (more, c) ← quotedBreaks fuel c
        return (first ++ more, c)
      else return ([], c)

def quotedSpaces (c : Cursor) : Except Failure (Text × Cursor) := do
  let (spaces, c) := c.takeWhile fun ch => ch == ' ' || ch == '\t'
  match c.peek with
  | none => throw c.shortage
  | some ch =>
    if isBreak ch then
      let (first, c) := c.lineBreak
      let (breaks, c) ← quotedBreaks (c.rest.length + 1) c
      let folded : Text :=
        if first != ['\n'] then first else if breaks.isEmpty then [' '] else []
      return (folded ++ breaks, c)
    else return (spaces, c)

def quotedEscape (c : Cursor) : Except Failure (Text × Cursor) := do
  match c.peek with
  | none => throw c.shortage
  | some ch =>
    match simpleEscape? ch, codeLength? ch with
    | some escaped, _ => return ([escaped], c.next)
    | none, some length =>
      let digits := c.next.rest.take length
      match Json.hexValue? digits with
      | some code =>
        if digits.length < length then throw c.shortage
        else return ([← charOfCode code], c.advance (length + 1))
      | none => throw .yaml
    | none, none =>
      if isBreak ch then quotedBreaks (c.rest.length + 1) c.lineBreak.2 else throw .yaml

def quotedTail (quote : Char) : Nat → Cursor → Except Failure (Text × Cursor)
  | 0, _ => .error .yaml
  | fuel + 1, c => do
    let double := quote == '"'
    match c.peek with
    | none => throw c.shortage
    | some ch =>
      if ch == quote then
        if !double && c.peekAt 1 == some quote then
          let (tail, c) ← quotedTail quote fuel (c.advance 2)
          return (quote :: tail, c)
        else return ([], c.next)
      else if double && ch == '\\' then
        let (escaped, c) ← quotedEscape c.next
        let (tail, c) ← quotedTail quote fuel c
        return (escaped ++ tail, c)
      else if isBlank ch then
        let (spaces, c) ← quotedSpaces c
        let (tail, c) ← quotedTail quote fuel c
        return (spaces ++ tail, c)
      else
        let (tail, c) ← quotedTail quote fuel c.next
        return (ch :: tail, c)

def quotedScalar (quote : Char) (c : Cursor) : Except Failure (Text × Cursor) :=
  quotedTail quote (c.rest.length + 1) c.next

end Yaml
end Transclusion
