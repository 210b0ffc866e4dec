import Transclusion.Failure
import Transclusion.Json.Reader
import Transclusion.Scope

/-!
This module contains variables files: JSON objects whose values are texts.
-/

namespace Transclusion
namespace VariablesFile

def misfits (entries : List (Value × Value)) : List (Text × Value) :=
  entries.filterMap fun
    | (_, .text _) => none
    | (key, value) => some (key.display, value)

def least : Text × Value → List (Text × Value) → Text × Value
  | entry, [] => entry
  | entry, other :: rest => least (if Text.le entry.1 other.1 then entry else other) rest

def validate (source : Text) : Value → Except Failure Scope
  | .map entries =>
    match misfits entries with
    | [] => .ok (.ofList (entries.map fun (key, value) => (key.display, value.display)))
    | first :: rest =>
      let (key, found) := least first rest
      .error (.invalidVariables (.mismatch source (some key) found))
  | value => .error (.invalidVariables (.mismatch source none value))

variable [Surrogates]

def parse (path text : Text) : Except Failure Scope :=
  match Json.read text with
  | .ok value => validate path value
  | .error fault => .error (.invalidVariables (.malformed path fault))

end VariablesFile
end Transclusion
