import Transclusion.Text.Blank

/-!
This module contains generated regions: the text between two markers that carry the same name and
id, the markers included. Cleaning a document takes out every region whose closing marker follows
its opening one, together with the line breaks around it.
-/

namespace Transclusion

structure Region where
  name : Text
  id : Text
  start : Nat
  stop : Nat
  deriving DecidableEq, Repr

namespace Region

def openingLead : Text := "<!-- included \""

def openingMarker (name id : Text) : Text :=
  "<!-- included \"" ++ name ++ "\" \"" ++ id ++ "\" -->"

def closingMarker (name id : Text) : Text :=
  "<!-- / included \"" ++ name ++ "\" \"" ++ id ++ "\" -->"

def upToQuote? (text : Text) : Option (Text × Text) :=
  let content := text.takeWhile (· != '"')
  match text.drop content.length with
  | _ :: rest => if content.isEmpty then none else some (content, rest)
  | [] => none

def openingAt? (text : Text) : Option (Text × Text) := do
  let afterLead ← openingLead.isPrefixOf? text
  let (name, afterName) ← upToQuote? afterLead
  let beforeId ← [' ', '"'].isPrefixOf? afterName
  let (id, afterId) ← upToQuote? beforeId
  if [' ', '-', '-', '>'].isPrefixOf afterId then some (name, id) else none

structure Opening where
  name : Text
  id : Text
  start : Nat
  stop : Nat
  breaks : Nat
  rest : Text
  deriving DecidableEq, Repr

def openings (text : Text) : List Opening :=
  go 0 0 0 0 text
where
  /-- The characters still covered by the last marker, the number of line feeds and then of blanks
  right before this place, the offset of this place, and the text to come. -/
  go : Nat → Nat → Nat → Nat → Text → List Opening
    | _, _, _, _, [] => []
    | skip + 1, _, _, offset, _ :: rest => go skip 0 0 (offset + 1) rest
    | 0, breaks, blanks, offset, c :: rest =>
      match openingAt? (c :: rest) with
      | some (name, id) =>
        let size := (openingMarker name id).length
        { name, id, start := offset - blanks, stop := offset + size, breaks,
          rest := (c :: rest).drop size } ::
          go (size - 1) 0 0 (offset + 1) rest
      | none =>
        if Text.isIndent c then go 0 breaks (blanks + 1) (offset + 1) rest
        else if c = '\n' then go 0 (if blanks = 0 then breaks + 1 else 1) 0 (offset + 1) rest
        else go 0 0 0 (offset + 1) rest

def Opening.regionStop? (o : Opening) : Option Nat :=
  let closing := closingMarker o.name o.id
  (Text.indexOf? closing o.rest).map fun i =>
    let size := i + closing.length
    o.stop + (if (o.rest.drop size).head? == some '\n' then size + 1 else size)

inductive Finding
  | region (r : Region)
  | unclosed (name id : Text)
  deriving DecidableEq, Repr

def findings (cursor : Nat) : List Opening → List Finding
  | [] => []
  | o :: rest =>
    if o.start < cursor then findings cursor rest
    else
      match o.regionStop? with
      | none => .unclosed o.name o.id :: findings cursor rest
      | some stop =>
        let start := o.start - min o.breaks (o.start - cursor)
        .region { name := o.name, id := o.id, start, stop } :: findings stop rest

def cut (cursor : Nat) (text : Text) : List Region → Text
  | [] => text
  | r :: rest => text.take (r.start - cursor) ++ cut r.stop (text.drop (r.stop - cursor)) rest

def survey (text : Text) : List Finding :=
  findings 0 (openings text)

def Finding.region? : Finding → Option Region
  | .region r => some r
  | .unclosed _ _ => none

def regions (text : Text) : List Region :=
  (survey text).filterMap Finding.region?

def clean (text : Text) : Text :=
  cut 0 text (regions text)

theorem rest_of_mem_go {text later : Text} {skip breaks blanks offset : Nat} {o : Opening}
    (hlater : later = text.drop offset) (h : o ∈ openings.go skip breaks blanks offset later) :
    o.rest = text.drop o.stop := by
  induction later generalizing skip breaks blanks offset with
  | nil => cases skip <;> simp [openings.go] at h
  | cons c later ih =>
    have htail : later = text.drop (offset + 1) := by
      rw [← List.tail_drop, ← hlater, List.tail_cons]
    cases skip with
    | succ skip =>
      rw [openings.go] at h
      exact ih htail h
    | zero =>
      rw [openings.go] at h
      split at h
      next name id _ =>
        cases List.mem_cons.mp h with
        | inl h =>
          subst h
          rw [hlater, List.drop_drop]
        | inr h => exact ih htail h
      next =>
        split at h
        . exact ih htail h
        . split at h
          . exact ih htail h
          . exact ih htail h

theorem rest_of_mem_openings {text : Text} {o : Opening} (h : o ∈ openings text) :
    o.rest = text.drop o.stop :=
  rest_of_mem_go (by simp) h

theorem clean_of_regions_eq_nil {text : Text} (h : regions text = []) : clean text = text := by
  simp [clean, h, cut]

end Region
end Transclusion
