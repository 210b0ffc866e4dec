import Transclusion.Yaml.Tag
import Transclusion.Yaml.Token

/-!
This module contains the nodes of a YAML document and their reading from tokens. Nodes refer to each
other by numbers, so that an alias is the very node that its anchor names. An anchor names a
collection from its beginning on; a collection may therefore stand inside itself.
-/

namespace Transclusion
namespace Yaml

inductive Content
  | scalar (text : Text)
  | sequence (items : List Nat)
  | mapping (entries : List (Nat × Nat))
  deriving DecidableEq, Repr

def Content.entryCount : Content → Nat
  | .mapping entries => entries.length
  | _ => 0

structure Node where
  tag : Tag
  content : Content
  deriving DecidableEq, Repr

instance : Inhabited Node := ⟨{ tag := .null, content := .scalar [] }⟩

abbrev Graph := Array Node

structure Reading where
  scan : Scan
  nodes : Graph := #[]
  anchors : List (Text × Nat) := []
  handles : List (Text × Text) := []

abbrev Parse := StateT Reading (Except Failure)

namespace Parse

variable [Surrogates]

def peek : Parse (Option Token) := do
  let r ← get
  let scan ← r.scan.ready
  set { r with scan }
  return scan.pending.head?

def skip : Parse Unit :=
  modify fun r => { r with scan := r.scan.take }

def nextIn (tokens : List Token) : Parse Bool := do
  return (← peek).any tokens.contains

def take (token : Token) : Parse Bool := do
  if (← peek) == some token then
    skip
    return true
  else return false

def expect (token : Token) : Parse Unit := do
  if !(← take token) then throw .yaml

def newNode (node : Node) : Parse Nat :=
  modifyGet fun r => (r.nodes.size, { r with nodes := r.nodes.push node })

def emptyScalar : Parse Nat :=
  newNode { tag := .null, content := .scalar [] }

def fill (number : Nat) (content : Content) : Parse Nat := do
  modify fun r => { r with nodes := r.nodes.modify number ({ · with content }) }
  return number

def addNode (anchor : Option Text) (node : Node) : Parse Nat := do
  let number ← newNode node
  if let some name := anchor then
    modify fun r => { r with anchors := (name, number) :: r.anchors }
  return number

def properties : Parse (Option Text × Option Text) := do
  let anchor ← anchor?
  let tag ← tag?
  let anchor ← if anchor.isNone && tag.isSome then anchor? else pure anchor
  return (anchor, ← tag.mapM expand)
where
  anchor? : Parse (Option Text) := do
    match ← peek with
    | some (.anchor name) =>
      skip
      return some name
    | _ => return none
  tag? : Parse (Option (Option Text × Text)) := do
    match ← peek with
    | some (.tag handle suffix) =>
      skip
      return some (handle, suffix)
    | _ => return none
  expand : Option Text × Text → Parse Text
    | (none, suffix) => return suffix
    | (some handle, suffix) => do
      match (← get).handles.lookup handle with
      | some expansion => return expansion ++ suffix
      | none => throw .yaml

def collectionTag (standard : Tag) : Option Text → Tag
  | none => standard
  | some tag => if tag = ['!'] then standard else .ofText tag

def scalarTag (plain : Bool) (text : Text) : Option Text → Tag
  | none => if plain then .ofPlain text else .text
  | some tag => if tag = ['!'] then .ofPlain text else .ofText tag

def checkAnchor (anchor : Option Text) : Parse Unit := do
  let anchors := (← get).anchors
  if anchor.any fun name => (anchors.lookup name).isSome then throw .yaml

mutual

/-- A node. Outside brackets it may be a block, and where `indentless` a sequence may begin without
indentation. The fuel bounds the number of steps. -/
def node : Nat → Bool → Bool → Parse Nat
  | 0, _, _ => throw .yaml
  | fuel + 1, inBlock, indentless => do
    match ← peek with
    | some (.alias anchor) =>
      skip
      match (← get).anchors.lookup anchor with
      | some number => return number
      | none => throw .yaml
    | _ =>
      let (anchor, tag) ← properties
      let sequence (items : Parse (List Nat)) : Parse Nat := do
        checkAnchor anchor
        let number ← addNode anchor
          { tag := collectionTag .sequence tag, content := .sequence [] }
        fill number (.sequence (← items))
      let mapping (entries : Parse (List (Nat × Nat))) : Parse Nat := do
        checkAnchor anchor
        let number ← addNode anchor { tag := collectionTag .mapping tag, content := .mapping [] }
        fill number (.mapping (← entries))
      let scalar (plain : Bool) (text : Text) : Parse Nat := do
        checkAnchor anchor
        addNode anchor { tag := scalarTag plain text tag, content := .scalar text }
      let next ← peek
      match next with
      | some (.scalar text plain) =>
        skip
        scalar plain text
      | _ =>
        if indentless && next == some .entry then sequence (indentlessItems fuel)
        else if next == some .flowSequenceStart then sequence (flowItems fuel)
        else if next == some .flowMappingStart then mapping (flowEntries fuel)
        else if inBlock && next == some .sequenceStart then sequence (blockItems fuel)
        else if inBlock && next == some .mappingStart then mapping (blockEntries fuel)
        else if anchor.isSome || tag.isSome then scalar tag.isNone []
        else throw .yaml

def blockItems : Nat → Parse (List Nat)
  | 0 => throw .yaml
  | fuel + 1 => do
    skip
    moreBlockItems fuel

def moreBlockItems : Nat → Parse (List Nat)
  | 0 => throw .yaml
  | fuel + 1 => do
    if ← take .entry then
      let item ← if ← nextIn [.entry, .blockEnd] then emptyScalar else node fuel true false
      return item :: (← moreBlockItems fuel)
    else
      expect .blockEnd
      return []

def indentlessItems : Nat → Parse (List Nat)
  | 0 => throw .yaml
  | fuel + 1 => do
    if ← take .entry then
      let item ←
        if ← nextIn [.entry, .key, .value, .blockEnd] then emptyScalar else node fuel true false
      return item :: (← indentlessItems fuel)
    else return []

def blockEntries : Nat → Parse (List (Nat × Nat))
  | 0 => throw .yaml
  | fuel + 1 => do
    skip
    moreBlockEntries fuel

def moreBlockEntries : Nat → Parse (List (Nat × Nat))
  | 0 => throw .yaml
  | fuel + 1 => do
    if ← take .key then
      let key ← blockPart fuel
      let value ← if ← take .value then blockPart fuel else emptyScalar
      return (key, value) :: (← moreBlockEntries fuel)
    else
      expect .blockEnd
      return []

def blockPart : Nat → Parse Nat
  | 0 => throw .yaml
  | fuel + 1 => do
    if ← nextIn [.key, .value, .blockEnd] then emptyScalar else node fuel true true

def flowItems : Nat → Parse (List Nat)
  | 0 => throw .yaml
  | fuel + 1 => do
    skip
    moreFlowItems fuel true

def moreFlowItems : Nat → Bool → Parse (List Nat)
  | 0, _ => throw .yaml
  | fuel + 1, first => do
    if ← take .flowSequenceEnd then return []
    if !first then expect .flowEntry
    if (← peek) == some .key then
      let item ← newNode { tag := .mapping, content := .mapping [] }
      skip
      let key ← flowPart fuel [.value, .flowEntry, .flowSequenceEnd]
      let value ←
        if ← take .value then flowPart fuel [.flowEntry, .flowSequenceEnd] else emptyScalar
      let item ← fill item (.mapping [(key, value)])
      return item :: (← moreFlowItems fuel false)
    else if ← take .flowSequenceEnd then return []
    else
      let item ← node fuel false false
      return item :: (← moreFlowItems fuel false)

def flowEntries : Nat → Parse (List (Nat × Nat))
  | 0 => throw .yaml
  | fuel + 1 => do
    skip
    moreFlowEntries fuel true

def moreFlowEntries : Nat → Bool → Parse (List (Nat × Nat))
  | 0, _ => throw .yaml
  | fuel + 1, first => do
    if ← take .flowMappingEnd then return []
    if !first then expect .flowEntry
    if ← take .key then
      let key ← flowPart fuel [.value, .flowEntry, .flowMappingEnd]
      let value ←
        if ← take .value then flowPart fuel [.flowEntry, .flowMappingEnd] else emptyScalar
      return (key, value) :: (← moreFlowEntries fuel false)
    else if ← take .flowMappingEnd then return []
    else
      let key ← node fuel false false
      return (key, ← emptyScalar) :: (← moreFlowEntries fuel false)

def flowPart : Nat → List Token → Parse Nat
  | 0, _ => throw .yaml
  | fuel + 1, ends => do
    if ← nextIn ends then emptyScalar else node fuel false false

end

/-! ## Documents -/

def standardHandles : List (Text × Text) :=
  [(['!'], ['!']), (['!', '!'], Tag.standardLead)]

def prologues : Nat → Bool → List (Text × Text) → Parse (List (Text × Text))
  | 0, _, _ => throw .yaml
  | fuel + 1, versioned, handles => do
    match ← peek with
    | some (.prologue (.version major)) =>
      if versioned || major != 1 then throw .yaml
      skip
      prologues fuel true handles
    | some (.prologue (.handle name expansion)) =>
      if (handles.lookup name).isSome then throw .yaml
      skip
      prologues fuel versioned ((name, expansion) :: handles)
    | some (.prologue .other) =>
      skip
      prologues fuel versioned handles
    | _ => return handles

def skipEnds : Nat → Parse Unit
  | 0 => throw .yaml
  | fuel + 1 => do
    if ← take .documentEnd then skipEnds fuel

def isPrologue : Option Token → Bool
  | some (.prologue _) => true
  | _ => false

def beginning (fuel : Nat) : Parse Unit := do
  let handles ← prologues fuel false []
  modify fun r => { r with handles := handles ++ standardHandles }
  expect .documentStart

def markedRoot (fuel : Nat) : Parse Nat := do
  beginning fuel
  let next ← peek
  if next.isNone || isPrologue next || next == some .documentStart || next == some .documentEnd
  then emptyScalar
  else node fuel true false

def document (fuel : Nat) : Parse (Option Nat) := do
  let first ← peek
  let root ←
    if first.isNone then pure none
    else if isPrologue first || first == some .documentStart then some <$> markedRoot fuel
    else
      modify fun r => { r with handles := standardHandles }
      some <$> node fuel true false
  skipEnds fuel
  if (← peek).isSome then
    beginning fuel
    throw .yaml
  return root

end Parse

def Graph.ofSource? [Surrogates] (source : Source) : Except Failure (Graph × Option Nat) := do
  let scan ← Scan.ofSource source
  let (root, r) ← (Parse.document (16 * source.text.length + 16)).run { scan }
  return (r.nodes, root)

end Yaml
end Transclusion
