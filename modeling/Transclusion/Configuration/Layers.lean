import Transclusion.Failure
import Transclusion.Value.Store

/-!
This module contains the layering of configurations: a layer's mappings are merged into those below,
everything else replaces what was there.
-/

namespace Transclusion
namespace Configuration

mutual

def mergeValues (base overriding : Value) : Value :=
  match base, overriding with
  | .map entries, .map layer => .map (mergeEntries entries layer)
  | _, value => value

def mergeEntries (base : List (Value × Value)) (layer : List (Value × Value)) :
    List (Value × Value) :=
  match layer with
  | [] => base
  | (key, value) :: rest =>
    let merged :=
      match Value.valueUnder? key base with
      | some old => mergeValues old value
      | none => value
    mergeEntries (Value.putEntry key merged base) rest

end

def parts? : Value → Option (List Value)
  | .list items | .members items => some items
  | .text text => some (text.map fun c => .text [c])
  | .bytes bytes => some (bytes.map fun byte => .int byte.toNat)
  | .map entries => some (entries.map (·.1))
  | _ => none

def pairEntry (index : Nat) (pair : Value) : Except Failure (Value × Value) :=
  match parts? pair with
  | none => .error .wrongKind
  | some [key, value] => if key.isKey then .ok (key, value) else .error .wrongKind
  | some parts =>
    .error (.invalidValue ("dictionary update sequence element #" ++ Text.ofNat index ++
      " has length " ++ Text.ofNat parts.length ++ "; 2 is required"))

def baseEntries (base : Value) : Except Failure (List (Value × Value)) := do
  match base with
  | .map entries => return entries
  | base =>
    match parts? base with
    | some pairs =>
      return Value.assign (← pairs.zipIdx.mapM fun (pair, index) => pairEntry index pair)
    | none => throw .wrongKind

mutual

def placeValue (store : Store) (base value : Value) : Value :=
  match base with
  | .map entries =>
    match ({ value, store } : Document).content with
    | .map layer => .map (placeEntries store entries layer)
    | _ => value
  | _ => value

def placeEntries (store : Store) (base layer : List (Value × Value)) : List (Value × Value) :=
  match base with
  | [] => layer
  | (key, inner) :: rest =>
    let layer :=
      match Value.valueUnder? key layer with
      | some value => Value.putEntry key (placeValue store inner value) layer
      | none => layer
    placeEntries store rest layer

end

def merge (base layer : Value) : Except Failure Value := do
  let entries ← baseEntries base
  match layer with
  | .map layer => return .map (mergeEntries entries layer)
  | layer => if layer.isTruthy then throw .noMapping else return .map entries

/-- Puts a document over a base. The merged mappings are new; all others stay as they are held. -/
def mergeDocument (base : Value) (layer : Document) : Except Failure Document := do
  let value ← merge base (placeValue layer.store base layer.value)
  return ({ layer with value } : Document).hold

end Configuration
end Transclusion
