import Transclusion.Text.Basic

/-!
This module contains calendar dates and moments of time, with the faults that keep numbers from
being one.
-/

namespace Transclusion

structure Date where
  year : Nat
  month : Nat
  day : Nat
  deriving DecidableEq, Repr

/-- A time on a day. The offset from universal time is in minutes where one is given. -/
structure Moment where
  date : Date
  hour : Nat
  minute : Nat
  second : Nat
  microsecond : Nat
  offset : Option Int
  deriving DecidableEq, Repr

namespace Date

def isLeapYear (year : Nat) : Bool :=
  year % 4 == 0 && (year % 100 != 0 || year % 400 == 0)

def daysIn (year month : Nat) : Nat :=
  if month = 2 then (if isLeapYear year then 29 else 28)
  else if month = 4 ∨ month = 6 ∨ month = 9 ∨ month = 11 then 30
  else 31

def fault? (d : Date) : Option Text :=
  if d.year = 0 ∨ 9999 < d.year then some ("year " ++ Text.ofNat d.year ++ " is out of range")
  else if d.month = 0 ∨ 12 < d.month then some "month must be in 1..12"
  else if d.day = 0 ∨ daysIn d.year d.month < d.day then some "day is out of range for month"
  else none

def daysBeforeYear (year : Nat) : Nat :=
  let y := year - 1
  365 * y + y / 4 - y / 100 + y / 400

def number (d : Date) : Nat :=
  let months := List.range (d.month - 1)
  months.foldl (fun days m => days + daysIn d.year (m + 1)) (daysBeforeYear d.year) + d.day

def text (d : Date) : Text :=
  Text.ofNatPadded 4 d.year ++ "-" ++ Text.ofNatPadded 2 d.month ++ "-" ++
    Text.ofNatPadded 2 d.day

end Date

namespace Moment

def clockText (m : Moment) : Text :=
  Text.ofNatPadded 2 m.hour ++ ":" ++ Text.ofNatPadded 2 m.minute ++ ":" ++
    Text.ofNatPadded 2 m.second ++
    (if m.microsecond = 0 then [] else '.' :: Text.ofNatPadded 6 m.microsecond)

def offsetText (minutes : Int) : Text :=
  (if minutes < 0 then "-" else "+") ++ Text.ofNatPadded 2 (minutes.natAbs / 60) ++ ":" ++
    Text.ofNatPadded 2 (minutes.natAbs % 60)

def text (separator : Char) (m : Moment) : Text :=
  m.date.text ++ [separator] ++ m.clockText ++ (m.offset.map offsetText).getD []

def microseconds (m : Moment) : Int :=
  let minutes : Int := ((m.date.number * 24 + m.hour) * 60 + m.minute : Nat)
  ((minutes - m.offset.getD 0) * 60 + m.second) * 1000000 + m.microsecond

def coincides (m n : Moment) : Bool :=
  m.offset.isSome == n.offset.isSome && m.microseconds == n.microseconds

def fault? (m : Moment) : Option Text :=
  match m.date.fault? with
  | some fault => some fault
  | none =>
    if 23 < m.hour then some "hour must be in 0..23"
    else if 59 < m.minute then some "minute must be in 0..59"
    else if 59 < m.second then some "second must be in 0..59"
    else none

end Moment
end Transclusion
