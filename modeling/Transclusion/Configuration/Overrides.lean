import Transclusion.Configuration.Coercion
import Transclusion.Log.Record
import Transclusion.Scope
import Transclusion.Value.Store

/-!
This module contains the settings that come from environment variables. The name of a variable gives
the path of its setting, and its text the value. A mapping that the configuration has at several
places changes at all of them.
-/

namespace Transclusion
namespace Configuration

def variableLead : Text := "POWERUPS_"

def overridePath? (name : Text) : Option (List Text) :=
  let keys := (Text.splitOnText "__" name).map Text.lower
  if keys.any List.isEmpty then none else some keys

/-- Assigns a value to the key at the end of a path, which begins at the mapping under a number. On
the way whatever is no mapping is replaced by a new one. -/
def assignFrom (value : Value) : List Text → Nat → Store → Store
  | [], _, store => store
  | [key], number, store => store.put number (.text key) value
  | key :: rest, number, store =>
    match Value.valueUnder? (.text key) (store.entries number) with
    | some (.held .map inner) => assignFrom value rest inner store
    | _ =>
      let (new, store) := Store.add .map (.map []) store
      assignFrom value rest (store.size - 1) (store.put number (.text key) new)

def assign (d : Document) (path : List Text) (value : Value) : Document :=
  match d.value with
  | .held .map number =>
    let (value, store) := value.hold d.store
    { d with store := assignFrom value path number store }
  | _ => d

def malformedName (name : Text) : Log.Record where
  level := Log.warning
  source := "powerups.core.config.manager"
  message := "Ignoring malformed POWERUPS_* key: " ++ name

def overrides (environment : Scope) : List (Text × Option (List Text) × Text) :=
  let sorted := environment.entries.mergeSort fun a b => Text.le a.1 b.1
  sorted.filterMap fun (name, text) =>
    (variableLead.isPrefixOf? name).map fun rest => (name, overridePath? rest, text)

end Configuration
end Transclusion
