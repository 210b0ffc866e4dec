import Transclusion.Configuration.Bundled
import Transclusion.Configuration.Layers
import Transclusion.Configuration.Overrides
import Transclusion.FileSystem.Data

/-!
This module contains the loading of a configuration: over the defaults comes the project's own file,
and over both come the environment variables.
-/

namespace Transclusion
namespace Configuration

abbrev Loading := ExceptT Failure (StateM (List Log.Record))

def record (r : Log.Record) : Loading Unit :=
  modify (· ++ [r])

def projectFileName : Text := ".powerups.yaml"

variable [Surrogates]

def readLayer (fs : FileSystem) (path : Path) : Except Failure Document :=
  match fs.readYaml path (.map []) true with
  | .ok document =>
    if document.isMap then .ok document
    else .error (.settings (.notMapping path.toText document.kindName))
  | .error (.notUtf8 fault) => .error (.settings (.invalidFile path.toText fault.message))
  | .error .yaml => .error (.settings (.invalidFile path.toText Failure.yaml.message))
  | .error failure => .error failure

def projectLayers (fs : FileSystem) (root : Path) : Loading Document := do
  let path := root.child projectFileName
  match ← ofExcept (fs.find? path) with
  | none => return (defaults : Document).hold
  | some _ =>
    record {
      level := Log.debug
      source := "powerups.core.config.manager"
      message := "Loading project config " ++ path.toText }
    ofExcept (readLayer fs path >>= mergeDocument defaults)

def override (environment : Scope) (config : Document) : Loading Document :=
  (overrides environment).foldlM
    (fun config (name, path?, text) => do
      match path? with
      | some path => return assign config path (← ofExcept (coerce text))
      | none =>
        record (malformedName name)
        return config)
    config

def load (fs : FileSystem) (root : Path) (environment : Scope) : Loading Document := do
  override environment (← projectLayers fs root)

end Configuration
end Transclusion
