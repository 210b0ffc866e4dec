import Transclusion.Yaml.Block
import Transclusion.Yaml.Plain
import Transclusion.Yaml.Quoted
import Transclusion.Yaml.Source

/-!
This module contains the tokens of a YAML text. Indentation shows in them as the beginnings and ends
of blocks. That a scalar is a key is only known at the colon after it; the key's token is then put
in front of it, which is possible as long as the line has not ended and the scalar is not too long.
Tokens are read as they are asked for (`Scan.ready`), and no further than is needed to know that the
next one is no key.
-/

namespace Transclusion
namespace Yaml

inductive Prologue
  | version (major : Nat)
  | handle (name expansion : Text)
  | other
  deriving DecidableEq, Repr

inductive Token
  | prologue (p : Prologue)
  | documentStart
  | documentEnd
  | sequenceStart
  | mappingStart
  | blockEnd
  | flowSequenceStart
  | flowSequenceEnd
  | flowMappingStart
  | flowMappingEnd
  | flowEntry
  | entry
  | key
  | value
  | alias (name : Text)
  | anchor (name : Text)
  | tag (handle : Option Text) (suffix : Text)
  | scalar (text : Text) (plain : Bool)
  deriving DecidableEq, Repr

structure KeyPlace where
  position : Nat
  required : Bool
  index : Nat
  line : Nat
  column : Nat
  deriving Repr

structure Scan where
  size : Nat
  cursor : Cursor
  taken : Nat := 0
  pending : List Token := []
  atEnd : Bool := false
  indent : Int := -1
  outer : List Int := []
  flow : Nat := 0
  keyAllowed : Bool := true
  keyPlaces : List (Nat × KeyPlace) := []

namespace Scan

abbrev Step := Scan → Except Failure Scan

def push (token : Token) (s : Scan) : Scan :=
  { s with pending := s.pending ++ [token] }

def insertAt (position : Nat) (tokens : List Token) (s : Scan) : Scan :=
  let n := position - s.taken
  { s with pending := s.pending.take n ++ tokens ++ s.pending.drop n }

def take (s : Scan) : Scan :=
  { s with taken := s.taken + 1, pending := s.pending.drop 1 }

def keyPlace? (s : Scan) : Option KeyPlace :=
  s.keyPlaces.lookup s.flow

def withoutKeyPlace (s : Scan) : Scan :=
  { s with keyPlaces := s.keyPlaces.filter (·.1 != s.flow) }

def dropKeyPlace : Step := fun s =>
  match s.keyPlace? with
  | some place => if place.required then .error .yaml else .ok s.withoutKeyPlace
  | none => .ok s

def dropStaleKeyPlaces : Step := fun s =>
  let isStale (place : KeyPlace) : Bool :=
    place.line != s.cursor.line || place.index + 1024 < s.cursor.index
  if s.keyPlaces.any fun (_, place) => isStale place && place.required then .error .yaml
  else .ok { s with keyPlaces := s.keyPlaces.filter fun (_, place) => !isStale place }

def saveKeyPlace : Step := fun s => do
  if s.keyAllowed then
    let required := s.flow == 0 && s.indent == (s.cursor.column : Int)
    let s ← s.dropKeyPlace
    let place : KeyPlace :=
      { position := s.taken + s.pending.length, required, index := s.cursor.index
        line := s.cursor.line, column := s.cursor.column }
    return { s with keyPlaces := (s.flow, place) :: s.keyPlaces }
  else return s

/-- Ends the blocks that are indented more than `column`. The second argument holds the indentations
around the innermost block. -/
def closeBlocks (column : Int) : List Int → Scan → Scan
  | [], s => s
  | around :: outer, s =>
    if column < s.indent then
      closeBlocks column outer ({ s with indent := around, outer }.push .blockEnd)
    else s

def unwind (column : Int) (s : Scan) : Scan :=
  if s.flow == 0 then closeBlocks column s.outer s else s

def openBlock (column : Nat) (s : Scan) : Bool × Scan :=
  if s.indent < (column : Int) then
    (true, { s with indent := column, outer := s.indent :: s.outer })
  else (false, s)

def moveTo (cursor : Cursor) (s : Scan) : Scan :=
  { s with cursor }

def allowKey (allowed : Bool) (s : Scan) : Scan :=
  { s with keyAllowed := allowed }

def skipToToken : Nat → Scan → Scan
  | 0, s => s
  | fuel + 1, s =>
    let c := s.cursor.skipSpaces
    let c := if c.nextIs (· == '#') then c.skipLine else c
    if c.nextIs isBreak then
      skipToToken fuel { s with cursor := c.lineBreak.2, keyAllowed := s.keyAllowed || s.flow == 0 }
    else s.moveTo c

/-! ## Single tokens -/

def indicator (n : Nat) (token : Token) (s : Scan) : Scan :=
  (s.moveTo (s.cursor.advance n)).push token

def documentMarker (token : Token) : Step := fun s => do
  let s ← (s.unwind (-1)).dropKeyPlace
  return (s.allowKey false).indicator 3 token

def flowStart (token : Token) : Step := fun s => do
  let s ← s.saveKeyPlace
  return ({ s with flow := s.flow + 1 }.allowKey true).indicator 1 token

def flowEnd (token : Token) : Step := fun s => do
  let s ← s.dropKeyPlace
  if s.flow = 0 then throw .yaml
  return ({ s with flow := s.flow - 1 }.allowKey false).indicator 1 token

def flowEntry : Step := fun s => do
  let s ← (s.allowKey true).dropKeyPlace
  return s.indicator 1 .flowEntry

def startBlock (token : Token) : Step := fun s =>
  if s.flow != 0 then .ok s
  else if !s.keyAllowed then .error .yaml
  else
    match s.openBlock s.cursor.column with
    | (true, s) => .ok (s.push token)
    | (false, s) => .ok s

def blockEntry : Step := fun s => do
  let s ← s.startBlock .sequenceStart
  let s ← (s.allowKey true).dropKeyPlace
  return s.indicator 1 .entry

def explicitKey : Step := fun s => do
  let s ← s.startBlock .mappingStart
  let s ← (s.allowKey (s.flow == 0)).dropKeyPlace
  return s.indicator 1 .key

def mappingValue : Step := fun s => do
  match s.keyPlace? with
  | some place =>
    let s := s.withoutKeyPlace
    let (opened, s) := if s.flow == 0 then s.openBlock place.column else (false, s)
    let key := if opened then [Token.mappingStart, Token.key] else [Token.key]
    return ((s.insertAt place.position key).allowKey false).indicator 1 .value
  | none =>
    let s ← s.startBlock .mappingStart
    let s ← (s.allowKey (s.flow == 0)).dropKeyPlace
    return s.indicator 1 .value

def name? (c : Cursor) : Option (Text × Cursor) :=
  let (name, c) := c.takeWhile isNameChar
  let follows := c.nextIsOrEnd fun ch => isBlank ch || "?:,]\x7d%@\x60".toList.contains ch
  if name.isEmpty || !follows then none else some (name, c)

def reference (token : Text → Token) : Step := fun s => do
  let s ← s.saveKeyPlace
  match name? s.cursor.next with
  | some (name, c) => return ((s.allowKey false).moveTo c).push (token name)
  | none => throw .yaml

def uriEscapes : Nat → Cursor → Except Failure (List UInt8 × Cursor)
  | 0, _ => .error .yaml
  | fuel + 1, c =>
    if c.nextIs (· == '%') then
      match c.next.rest with
      | high :: low :: _ =>
        match Json.hexValue? [high, low] with
        | some byte => do
          let (bytes, c) ← uriEscapes fuel (c.advance 3)
          return (UInt8.ofNat byte :: bytes, c)
        | none => .error .yaml
      | _ => .error .yaml
    else .ok ([], c)

def isUriChar (c : Char) : Bool :=
  c.isAlphanum || "-;/?:@&=+$,_.!~*\x27()[]".toList.contains c

def uriTail : Nat → Cursor → Except Failure (Text × Cursor)
  | 0, _ => .error .yaml
  | fuel + 1, c => do
    let (plain, c) := c.takeWhile isUriChar
    if c.nextIs (· == '%') then
      let (bytes, c) ← uriEscapes (c.rest.length + 1) c
      match Utf8.decode bytes with
      | .ok text =>
        let (tail, c) ← uriTail fuel c
        return (plain ++ text ++ tail, c)
      | .error _ => throw .yaml
    else return (plain, c)

def uri (c : Cursor) : Except Failure (Text × Cursor) := do
  let (text, after) ← uriTail (c.rest.length + 1) c
  if after.index = c.index then throw .yaml else return (text, after)

def tagHandle (c : Cursor) : Except Failure (Text × Cursor) :=
  if !c.nextIs (· == '!') then .error .yaml
  else if c.next.nextIs (· == ' ') then .ok (['!'], c.next)
  else
    let (name, c) := c.next.takeWhile isNameChar
    if c.nextIs (· == '!') then .ok ('!' :: (name ++ ['!']), c.next) else .error .yaml

def tagParts (c : Cursor) : Except Failure (Option Text × Text × Cursor) := do
  if c.peekAt 1 == some '<' then
    let (suffix, c) ← uri (c.advance 2)
    if c.nextIs (· == '>') then return (none, suffix, c.next) else throw .yaml
  else if c.isOrEndAt 1 isBlank then return (none, ['!'], c.next)
  else
    let word := c.next.rest.takeWhile fun ch => !(ch == ' ' || isBreak ch)
    let (handle, c) ← if word.contains '!' then tagHandle c else .ok (['!'], c.next)
    let (suffix, c) ← uri c
    return (some handle, suffix, c)

def tag : Step := fun s => do
  let s ← s.saveKeyPlace
  let (handle, suffix, c) ← tagParts s.cursor
  if !c.nextIsOrEnd (fun ch => ch == ' ' || isBreak ch) then throw .yaml
  return ((s.allowKey false).moveTo c).push (.tag handle suffix)

def block (folded : Bool) : Step := fun s => do
  let s ← (s.allowKey true).dropKeyPlace
  let (text, c) ← blockScalar folded s.indent s.cursor
  return (s.moveTo c).push (.scalar text false)

variable [Surrogates]

def quoted (quote : Char) : Step := fun s => do
  let s ← s.saveKeyPlace
  let (text, c) ← quotedScalar quote s.cursor
  return ((s.allowKey false).moveTo c).push (.scalar text false)

def plain : Step := fun s => do
  let s ← s.saveKeyPlace
  let p := plainScalar (s.flow != 0) s.indent s.cursor
  return ((s.allowKey p.brokeLine).moveTo p.cursor).push (.scalar p.text true)

/-! ## Directives -/

def number? (c : Cursor) : Option (Nat × Cursor) :=
  let (digits, c) := c.takeWhile Char.isDigit
  if digits.isEmpty then none else some (Text.digitsValue digits, c)

def prologueValue (name : Text) (c : Cursor) : Except Failure (Prologue × Cursor) := do
  let endsHere (c : Cursor) : Bool := c.nextIsOrEnd fun ch => ch == ' ' || isBreak ch
  if name = "YAML".toList then
    match number? c.skipSpaces with
    | some (major, c) =>
      if !c.nextIs (· == '.') then throw .yaml
      match number? c.next with
      | some (_, c) => if endsHere c then return (.version major, c) else throw .yaml
      | none => throw .yaml
    | none => throw .yaml
  else if name = "TAG".toList then
    let (handle, c) ← tagHandle c.skipSpaces
    if !c.nextIs (· == ' ') then throw .yaml
    let (expansion, c) ← uri c.skipSpaces
    if endsHere c then return (.handle handle expansion, c) else throw .yaml
  else return (.other, c.skipLine)

def prologue : Step := fun s => do
  let s ← (s.unwind (-1)).dropKeyPlace
  let (name, c) := s.cursor.next.takeWhile isNameChar
  if name.isEmpty || !c.nextIsOrEnd (fun ch => ch == ' ' || isBreak ch) then throw .yaml
  let (p, c) ← prologueValue name c
  match c.endOfLine? with
  | some c => return ((s.allowKey false).moveTo c).push (.prologue p)
  | none => throw .yaml

/-! ## The whole text -/

def token (first : Char) : Step := fun s =>
  let c := s.cursor
  let inFlow := s.flow != 0
  let standsAlone := inFlow || c.isOrEndAt 1 isBlank
  if first == '%' && c.column == 0 then s.prologue
  else if c.column == 0 && c.isMarker '-' then s.documentMarker .documentStart
  else if c.column == 0 && c.isMarker '.' then s.documentMarker .documentEnd
  else if first == '[' then s.flowStart .flowSequenceStart
  else if first == '\x7b' then s.flowStart .flowMappingStart
  else if first == ']' then s.flowEnd .flowSequenceEnd
  else if first == '\x7d' then s.flowEnd .flowMappingEnd
  else if first == ',' then s.flowEntry
  else if first == '-' && c.isOrEndAt 1 isBlank then s.blockEntry
  else if first == '?' && standsAlone then s.explicitKey
  else if first == ':' && standsAlone then s.mappingValue
  else if first == '*' then s.reference .alias
  else if first == '&' then s.reference .anchor
  else if first == '!' then s.tag
  else if first == '|' && !inFlow then s.block false
  else if first == '>' && !inFlow then s.block true
  else if first == '\x27' || first == '"' then s.quoted first
  else if startsPlain inFlow c then s.plain
  else .error .yaml

def fetch : Step := fun s => do
  let s := s.skipToToken (s.size + 1)
  let s ← s.moveTo (← s.cursor.settled) |>.dropStaleKeyPlaces
  let s := s.unwind s.cursor.column
  match s.cursor.peek with
  | none =>
    let s ← (s.unwind (-1)).dropKeyPlace
    return { s with keyPlaces := [], atEnd := true }
  | some first =>
    let s ← s.token first
    return s.moveTo (← s.cursor.settled)

/-- Reads until it is known what the next token is: while it may turn out to be a key, more has to
be read. The fuel bounds the number of tokens. -/
def readyWithin : Nat → Step
  | 0, _ => .error .yaml
  | fuel + 1, s =>
    if s.atEnd then .ok s
    else if s.pending.isEmpty then do readyWithin fuel (← s.fetch)
    else do
      let s ← s.dropStaleKeyPlaces
      if s.keyPlaces.any (·.2.position == s.taken) then readyWithin fuel (← s.fetch)
      else return s

def ready : Step := fun s =>
  readyWithin (s.size + 2) s

def ofSource (source : Source) : Except Failure Scan := do
  return { size := source.text.length, cursor := ← source.start }

end Scan
end Yaml
end Transclusion
