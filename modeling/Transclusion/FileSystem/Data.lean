import Transclusion.FileSystem.Basic
import Transclusion.VariablesFile
import Transclusion.Yaml.Document

/-!
This module contains the reading of data files: JSON, YAML and variables files.
-/

namespace Transclusion
namespace FileSystem

variable [Surrogates]

def readJson (fs : FileSystem) (p : Path) : Except Failure Value := do
  match Json.read (← fs.readText p) with
  | .ok value => return value
  | .error fault => throw (.json fault)

def readVariables (fs : FileSystem) (p : Path) : Except Failure Scope := do
  VariablesFile.parse p.toText (← fs.readText p)

def isUnreadable : Failure → Bool
  | .system _ _ | .notUtf8 _ | .yaml => true
  | _ => false

def loadYaml (fs : FileSystem) (p : Path) : Except Failure Document := do
  Yaml.load (.ofBytes (← fs.readBytes p))

def readYaml (fs : FileSystem) (p : Path) (absent : Value) (strict : Bool) :
    Except Failure Document := do
  let none : Document := absent
  if (← fs.find? p).isNone then
    if strict then throw (.fileMissing p.toText) else return none
  match fs.loadYaml p with
  | .ok document => return if document.value matches .null then none else document
  | .error failure => if !strict && isUnreadable failure then return none else throw failure

end FileSystem
end Transclusion
