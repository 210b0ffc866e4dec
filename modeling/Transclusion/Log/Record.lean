import Transclusion.Text.Basic

/-!
This module contains log records and the names of their levels.
-/

namespace Transclusion
namespace Log

structure Record where
  level : Int
  source : Text
  message : Text
  deriving DecidableEq, Repr

def debug : Int := 10
def info : Int := 20
def warning : Int := 30

def levelOfName? (name : Text) : Option Int :=
  [("CRITICAL".toList, 50), ("FATAL".toList, 50), ("ERROR".toList, 40), ("WARN".toList, 30),
    ("WARNING".toList, 30), ("INFO".toList, 20), ("DEBUG".toList, 10),
    ("NOTSET".toList, 0)].lookup name

def levelName (level : Int) : Text :=
  if level = 50 then "CRITICAL"
  else if level = 40 then "ERROR"
  else if level = 30 then "WARNING"
  else if level = 20 then "INFO"
  else if level = 10 then "DEBUG"
  else if level = 0 then "NOTSET"
  else "Level " ++ Text.ofInt level

end Log
end Transclusion
