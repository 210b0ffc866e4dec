import Transclusion.Yaml.Cursor

/-!
This module contains the texts of block scalars, which keep their line breaks (`|`) or fold them
(`>`). The header can fix the indentation and what becomes of the line breaks at the end.
-/

namespace Transclusion
namespace Yaml

inductive Chomping
  | strip
  | clip
  | keep
  deriving DecidableEq, Repr

structure BlockHeader where
  chomping : Chomping := .clip
  increment : Option Nat := none
  deriving DecidableEq, Repr

def chomping? : Option Char → Option Chomping
  | some '+' => some .keep
  | some '-' => some .strip
  | _ => none

def increment? (c : Cursor) : Except Failure (Option Nat × Cursor) :=
  match c.peek with
  | some ch =>
    if ch == '0' then .error .yaml
    else if ch.isDigit then .ok (some (ch.toNat - 48), c.next)
    else .ok (none, c)
  | none => .ok (none, c)

def blockHeader (c : Cursor) : Except Failure (BlockHeader × Cursor) := do
  match chomping? c.peek with
  | some chomping =>
    let (increment, c) ← increment? c.next
    return ({ chomping, increment }, c)
  | none =>
    let (increment, c) ← increment? c
    match increment, chomping? c.peek with
    | some _, some chomping => return ({ chomping, increment }, c.next)
    | _, _ => return ({ increment }, c)

def skipIndent (indent : Nat) (c : Cursor) : Cursor :=
  c.advance ((c.rest.takeWhile (· == ' ')).length.min (indent - c.column))

def leadingLines (deepest : Nat) : Nat → Cursor → Text × Nat × Cursor
  | 0, c => ([], deepest, c)
  | fuel + 1, c =>
    if c.nextIs (· == ' ') then
      let c := c.skipSpaces
      leadingLines (max deepest c.column) fuel c
    else if c.nextIs isBreak then
      let (first, c) := c.lineBreak
      let (more, deepest, c) := leadingLines deepest fuel c
      (first ++ more, deepest, c)
    else ([], deepest, c)

def emptyLines (indent : Nat) : Nat → Cursor → List Text × Cursor
  | 0, c => ([], skipIndent indent c)
  | fuel + 1, c =>
    let c := skipIndent indent c
    if c.nextIs isBreak then
      let (first, c) := c.lineBreak
      let (more, c) := emptyLines indent fuel c
      (first :: more, c)
    else ([], c)

def blockLines (folded : Bool) (indent : Nat) : Nat → Cursor → Text × Text × List Text × Cursor
  | 0, c => ([], [], [], c)
  | fuel + 1, c =>
    let startsPlain := !c.nextIs fun ch => ch == ' ' || ch == '\t'
    let (line, c) := c.takeWhile (!isBreak ·)
    let (ending, c) := c.lineBreak
    let (empty, c) := emptyLines indent (c.rest.length + 1) c
    if c.column == indent && c.peek.isSome then
      let nextPlain := !c.nextIs fun ch => ch == ' ' || ch == '\t'
      let joint : Text :=
        if folded && ending == ['\n'] && startsPlain && nextPlain then
          if empty.isEmpty then [' '] else []
        else ending
      let (more, ending, trailing, c) := blockLines folded indent fuel c
      (line ++ joint ++ empty.flatten ++ more, ending, trailing, c)
    else (line, ending, empty, c)

def blockScalar (folded : Bool) (around : Int) (c : Cursor) : Except Failure (Text × Cursor) := do
  let (header, c) ← blockHeader c.next
  if !c.nextIsOrEnd (fun ch => ch == ' ' || isBreak ch) then throw .yaml
  match c.endOfLine? with
  | none => throw .yaml
  | some c =>
    let least := (max 1 (around + 1)).toNat
    let (leading, indent, c) : Text × Nat × Cursor :=
      match header.increment with
      | some increment =>
        let indent := least + increment - 1
        let (empty, c) := emptyLines indent (c.rest.length + 1) c
        (empty.flatten, indent, c)
      | none =>
        let (empty, deepest, c) := leadingLines 0 (c.rest.length + 1) c
        (empty, max least deepest, c)
    let (text, ending, trailing, c) : Text × Text × List Text × Cursor :=
      if c.column == indent && c.peek.isSome then
        let (text, ending, trailing, c) := blockLines folded indent (c.rest.length + 1) c
        (leading ++ text, ending, trailing, c)
      else ([], [], [leading], c)
    match header.chomping with
    | .strip => return (text, c)
    | .clip => return (text ++ ending, c)
    | .keep => return (text ++ ending ++ trailing.flatten, c)

end Yaml
end Transclusion
