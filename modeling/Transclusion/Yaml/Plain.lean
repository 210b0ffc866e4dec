import Transclusion.Yaml.Cursor

/-!
This module contains the texts of plain scalars, which have no quotes. They end before a comment, a
colon and a blank, or a line that is not indented enough; in brackets also before a comma or
bracket.
-/

namespace Transclusion
namespace Yaml

structure PlainScalar where
  text : Text
  cursor : Cursor
  brokeLine : Bool

def startsPlain (inFlow : Bool) (c : Cursor) : Bool :=
  match c.peek with
  | none => false
  | some ch =>
    let indicators := "-?:,[]\x7b\x7d#&*!|>\x27\"%@\x60".toList
    if !isBlank ch && !indicators.contains ch then true
    else !c.isOrEndAt 1 isBlank && (ch == '-' || (!inFlow && (ch == '?' || ch == ':')))

def plainRun (inFlow : Bool) : Text → Text
  | [] => []
  | ch :: rest =>
    let flowMarks : Text := if inFlow then ",[]\x7b\x7d" else []
    if isBlank ch then []
    else if ch == ':' && rest.head?.all (fun c => isBlank c || flowMarks.contains c) then []
    else if inFlow && ",?[]\x7b\x7d".toList.contains ch then []
    else ch :: plainRun inFlow rest

def plainBreaks : Nat → Cursor → Option Text × Cursor
  | 0, c => (some [], c)
  | fuel + 1, c =>
    if c.nextIs (· == ' ') then plainBreaks fuel c.next
    else if c.nextIs isBreak then
      let (first, c) := c.lineBreak
      if c.isDocumentMarker then (none, c)
      else
        let (more, c) := plainBreaks fuel c
        (more.map (first ++ ·), c)
    else (some [], c)

def plainSpaces (c : Cursor) : Text × Bool × Cursor :=
  let (spaces, c) := c.takeWhile (· == ' ')
  if c.nextIs isBreak then
    let (first, c) := c.lineBreak
    if c.isDocumentMarker then ([], true, c)
    else
      match plainBreaks (c.rest.length + 1) c with
      | (none, c) => ([], true, c)
      | (some breaks, c) =>
        let folded : Text :=
          if first != ['\n'] then first else if breaks.isEmpty then [' '] else []
        (folded ++ breaks, true, c)
  else (spaces, false, c)

def plainTail (inFlow : Bool) (indent : Int) (spaces : Text) (brokeLine : Bool) :
    Nat → Cursor → PlainScalar
  | 0, c => { text := [], cursor := c, brokeLine }
  | fuel + 1, c =>
    let run := plainRun inFlow c.rest
    if c.nextIs (· == '#') || run.isEmpty then { text := [], cursor := c, brokeLine }
    else
      let (after, brokeLine, c) := plainSpaces (c.advance run.length)
      if after.isEmpty || c.nextIs (· == '#') || (!inFlow && (c.column : Int) < indent) then
        { text := spaces ++ run, cursor := c, brokeLine }
      else
        let tail := plainTail inFlow indent after brokeLine fuel c
        { tail with text := spaces ++ run ++ tail.text }

def plainScalar (inFlow : Bool) (around : Int) (c : Cursor) : PlainScalar :=
  plainTail inFlow (around + 1) [] false (c.rest.length + 1) c

end Yaml
end Transclusion
