import Transclusion.Log.Record
import Transclusion.Path
import Transclusion.Text.Case

/-!
This module contains the log's channel: which handlers are attached to it, which of them was put in by
a configuration, and where a record is written. Without a handler only warnings and worse are shown, as
bare messages.
-/

namespace Transclusion
namespace Log

inductive Target
  | errors
  | file (path : Path)
  deriving DecidableEq, Repr

structure Handler where
  number : Nat
  target : Target
  level : Int
  deriving DecidableEq, Repr

structure Channel where
  attached : List Handler := []
  current : Option Nat := none
  /-- The target of the last handler that was put in. It stays known when that handler is gone. -/
  target : Option Target := none
  made : Nat := 0
  level : Int := 0
  deriving DecidableEq, Repr

inductive Route
  | line (target : Target)
  | bare
  deriving DecidableEq, Repr

def isOwn (source : Text) : Bool :=
  source == "powerups".toList || "powerups.".toList.isPrefixOf source

def levelOfText (text : Text) : Int :=
  (levelOfName? (Text.upper text)).getD info

namespace Channel

def threshold (c : Channel) (source : Text) : Int :=
  if isOwn source && c.level != 0 then c.level else warning

def handlersOf (c : Channel) (source : Text) : List Handler :=
  if isOwn source then c.attached else []

def routes (c : Channel) (r : Record) : List Route :=
  if r.level ≤ 0 || r.level < c.threshold r.source then []
  else
    match c.handlersOf r.source with
    | [] => if r.level < warning then [] else [.bare]
    | handlers => (handlers.filter (·.level ≤ r.level)).map (.line ·.target)

def isCurrent (c : Channel) (h : Handler) : Bool :=
  c.current == some h.number

def handler (c : Channel) : Option Handler :=
  c.attached.find? c.isCurrent

def serves (c : Channel) (target : Target) : Bool :=
  c.target == some target && c.current.isSome

def setLevel (c : Channel) (level : Int) : Channel :=
  { c with level }

def setHandlerLevel (c : Channel) (level : Int) : Channel :=
  { c with attached := c.attached.map fun h => if c.isCurrent h then { h with level } else h }

def detach (c : Channel) : Channel :=
  { c with attached := c.attached.filter (!c.isCurrent ·), current := none }

def attach (c : Channel) (target : Target) (level : Int) : Channel :=
  { c with
    attached := c.attached ++ [{ number := c.made, target, level }]
    current := some c.made
    target := some target
    made := c.made + 1 }

def reset (c : Channel) : Channel :=
  { c.detach with target := none }

end Channel

def Record.line (clock : Text) (r : Record) : Text :=
  clock ++ [' '] ++ levelName r.level ++ [' '] ++ r.source ++ ": " ++ r.message ++ ['\n']

end Log
end Transclusion
