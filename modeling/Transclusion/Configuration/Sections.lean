import Transclusion.Decimal.Integer
import Transclusion.Path
import Transclusion.Text.Case
import Transclusion.Value.Store

/-!
This module contains the settings that a configuration holds, by section: how includes are expanded,
where they are looked for, and what is logged.
-/

namespace Transclusion
namespace Configuration

def lookUp (name : Text) (config : Document) : Except Failure (Option Document) :=
  match config.content with
  | .map _ => .ok (config.field? name)
  | _ => .error .noMapping

def sectionOf (name : Text) (config : Document) : Except Failure Document := do
  let found := (← lookUp name config).getD (Value.map [])
  return if found.isTruthy then found else Value.map []

def setting (sectionName name : Text) (config : Document) : Except Failure (Option Document) := do
  lookUp name (← sectionOf sectionName config)

def wordBound : Int := 0x8000000000000000

def mostSpaces : Int := 0x10000000000

def spaces (n : Int) : Except Failure Text :=
  if n < -wordBound || wordBound ≤ n then .error .outOfRange
  else if mostSpaces < n then .error .tooLong
  else .ok (List.replicate n.toNat ' ')

def nestingIndent (config : Document) : Except Failure Text := do
  match (← setting "expansion" "nesting_indent" config).map Document.unfold with
  | none | some .null => return [' ', ' ']
  | some value =>
    match value.integer? with
    | some n => spaces n
    | none => return value.display

def integerOf (value : Value) : Except Failure Int :=
  match value with
  | .bool b => .ok (if b then 1 else 0)
  | .int n => .ok n
  | .float (.infinite _) => .error .outOfRange
  | .float x => orMisfit x.truncate?
  | .text t => orMisfit (Decimal.readInt? t)
  | .bytes b =>
    -- Bytes beyond ASCII are neither digits nor blanks.
    if b.all (· < 128) then orMisfit (Decimal.readInt? (b.map fun byte => Char.ofNat byte.toNat))
    else orMisfit none
  | _ => orMisfit none
where
  orMisfit : Option Int → Except Failure Int
    | some n => .ok n
    | none => .error (.settings (.depthNotInteger value))

def maxDepth (config : Document) : Except Failure Int := do
  match (← setting "expansion" "max_depth" config).map Document.unfold with
  | none | some .null => return 64
  | some value =>
    let depth ← integerOf value
    if depth < 0 then throw (.settings (.depthNegative depth)) else return depth

variable [Surrogates]

def pathSetting (homes : Homes) (root : Path) (sectionName name : Text) (config : Document) :
    Except Failure (Option Path) := do
  match ← setting sectionName name config with
  | none => return none
  | some value =>
    if value.isTruthy then
      return some (root.join (← (Path.ofText value.display).expandHome homes))
    else return none

def folder (homes : Homes) (root : Path) (config : Document) : Except Failure (Option Path) :=
  pathSetting homes root "index" "folder" config

def flag (sectionName name : Text) (config : Document) : Except Failure Bool := do
  return ((← setting sectionName name config).getD (Value.bool false)).isTruthy

def recursive (config : Document) : Except Failure Bool :=
  flag "index" "recursive" config

def includeHidden (config : Document) : Except Failure Bool :=
  flag "index" "include_hidden" config

def logLevel (config : Document) : Except Failure Text := do
  let value := (← setting "logging" "level" config).getD Value.null
  return Text.upper (if value.isTruthy then value.display else "WARNING".toList)

def logFile (homes : Homes) (root : Path) (config : Document) : Except Failure (Option Path) :=
  pathSetting homes root "logging" "file" config

end Configuration
end Transclusion
