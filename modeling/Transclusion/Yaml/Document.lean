import Transclusion.Value.Members
import Transclusion.Value.Store
import Transclusion.Yaml.Node
import Transclusion.Yaml.Scalar

/-!
This module contains the documents that nodes stand for. A node becomes a value once. A collection
is held under the number of its node, so that every alias of the node is the same collection; it is
filled after all that were met before it, and only then it shows whether it can be filled.
-/

namespace Transclusion
namespace Yaml

structure Build where
  nodes : Graph
  values : Array (Option Value)
  store : Store
  queue : Array Nat := #[]

abbrev Building := StateT Build (Except Failure)

namespace Building

def nodeAt (number : Nat) : Building Node := do
  return (← get).nodes[number]?.getD default

def setNode (number : Nat) (node : Node) : Building Unit :=
  modify fun b => { b with nodes := b.nodes.setIfInBounds number node }

def entriesOf (number : Nat) : Building (List (Nat × Nat)) := do
  match (← nodeAt number).content with
  | .mapping entries => return entries
  | _ => throw .yaml

def setEntries (number : Nat) (entries : List (Nat × Nat)) : Building Unit := do
  let node ← nodeAt number
  setNode number { node with content := .mapping entries }

/-! ## Scalars -/

def defaultOf : List (Nat × Nat) → Building Nat
  | [] => throw .yaml
  | (key, value) :: rest => do
    if (← nodeAt key).tag = .default then return value else defaultOf rest

/-- The text of a scalar. That of a mapping is the text of its default. The fuel bounds the nesting;
only a mapping inside itself exceeds it. -/
def scalarText : Nat → Nat → Building Text
  | 0, _ => throw .tooDeep
  | fuel + 1, number => do
    match (← nodeAt number).content with
    | .scalar text => return text
    | .sequence _ => throw .yaml
    | .mapping entries => scalarText fuel (← defaultOf entries)

def scalar (number : Nat) : Building Value := do
  let node ← nodeAt number
  if node.tag = .unknown || node.tag = .merge || node.tag = .default then throw .yaml
  let text ← scalarText ((← get).nodes.size + 1) number
  match node.tag, node.content with
  | .timestamp, .mapping _ => throw .wrongKind
  | tag, _ => ofExcept (scalarValue (number + 1) tag text)

/-! ## Values -/

def collection? : Tag → Option Collection
  | .sequence | .orderedMapping | .pairs => some .list
  | .mapping => some .map
  | .members => some .members
  | _ => none

def valueOf (number : Nat) : Building Value := do
  match (← get).values[number]?.join with
  | some value => return value
  | none =>
    let value ←
      match collection? (← nodeAt number).tag with
      | some kind =>
        modify fun b => { b with queue := b.queue.push number }
        pure (Value.held kind number)
      | none => scalar number
    modify fun b => { b with values := b.values.setIfInBounds number (some value) }
    return value

/-! ## Entries that are taken over -/

def ownBefore : List (Nat × Nat) → Building Nat
  | [] => return 0
  | (key, _) :: rest => do
    let node ← nodeAt key
    if node.tag = .merge then return 0
    if node.tag = .default then setNode key { node with tag := .text }
    return (← ownBefore rest) + 1

mutual

/-- Replaces the keys `<<` of a mapping by the entries that they take over, in front of its own. The
fuel bounds the number of these keys in the document. -/
def flatten : Nat → Nat → Building Unit
  | 0, _ => throw .yaml
  | fuel + 1, number => do
    let taken ← takenFrom fuel number 0
    if !taken.isEmpty then setEntries number (taken ++ (← entriesOf number))

def takenFrom : Nat → Nat → Nat → Building (List (Nat × Nat))
  | 0, _, _ => throw .yaml
  | fuel + 1, number, index => do
    let entries ← entriesOf number
    let index := index + (← ownBefore (entries.drop index))
    match entries[index]? with
    | none => return []
    | some (_, value) =>
      setEntries number (entries.eraseIdx index)
      let here ← takenOver fuel value
      return here ++ (← takenFrom fuel number index)

def takenOver : Nat → Nat → Building (List (Nat × Nat))
  | 0, _ => throw .yaml
  | fuel + 1, number => do
    match (← nodeAt number).content with
    | .scalar _ => throw .yaml
    | .mapping _ => flattened fuel number
    | .sequence items => return (← items.mapM (flattened fuel)).reverse.flatten

def flattened : Nat → Nat → Building (List (Nat × Nat))
  | 0, _ => throw .yaml
  | fuel + 1, number => do
    let _ ← entriesOf number
    flatten fuel number
    entriesOf number

end

/-! ## Collections -/

def entry (part : Nat × Nat) : Building (Value × Value) := do
  let key ← valueOf part.1
  if !key.isKey then throw .yaml
  return (key, ← valueOf part.2)

def entries (number : Nat) : Building (List (Value × Value)) := do
  let total := (← get).nodes.foldl (fun n node => n + node.content.entryCount) 0
  let parts ← flattened (4 * total + 4) number
  return Value.assign (← parts.mapM entry)

def itemsOf (number : Nat) : Building (List Nat) := do
  match (← nodeAt number).content with
  | .sequence items => return items
  | _ => throw .yaml

def pair (number : Nat) : Building Value := do
  match ← entriesOf number with
  | [(key, value)] => return .pair (← valueOf key) (← valueOf value)
  | _ => throw .yaml

def collection (number : Nat) : Building Value := do
  match (← nodeAt number).tag with
  | .mapping => return .map (← entries number)
  | .members => return .members (Members.ordered ((← entries number).map (·.1)))
  | .orderedMapping | .pairs => return .list (← (← itemsOf number).mapM pair)
  | _ => return .list (← (← itemsOf number).mapM valueOf)

def fillFrom : Nat → Nat → Building Unit
  | 0, _ => return ()
  | fuel + 1, index => do
    match (← get).queue[index]? with
    | none => return ()
    | some number =>
      let value ← collection number
      modify fun b => { b with store := b.store.setIfInBounds number value }
      fillFrom fuel (index + 1)

end Building

def load [Surrogates] (source : Source) : Except Failure Document := do
  match ← Graph.ofSource? source with
  | (_, none) => return { value := .null }
  | (nodes, some root) =>
    let size := nodes.size
    let start : Build :=
      { nodes, values := Array.replicate size none, store := Array.replicate size .null }
    let (value, build) ← (do
      let value ← Building.valueOf root
      Building.fillFrom (size + 1) 0
      return value : Building Value).run start
    return { value, store := build.store }

end Yaml
end Transclusion
