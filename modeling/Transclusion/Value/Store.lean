import Transclusion.Value.Display

/-!
This module contains stores, which hold collections under numbers, and documents, which are values
over a store. A document may have one collection at several places, and even inside itself; what
changes it at one place changes it at all of them. `Document.unfold` gives the value that such a
document shows.
-/

namespace Transclusion

abbrev Store := Array Value

namespace Store

def add (kind : Collection) (value : Value) : StateM Store Value :=
  modifyGet fun s => (.held kind s.size, s.push value)

def entries (s : Store) (number : Nat) : List (Value × Value) :=
  match s[number]? with
  | some (.map entries) => entries
  | _ => []

def put (s : Store) (number : Nat) (key value : Value) : Store :=
  s.setIfInBounds number (.map (Value.putEntry key value (s.entries number)))

end Store

namespace Value

mutual

def resolve (f : Collection → Nat → Value) : Value → Value
  | .pair first second => .pair (first.resolve f) (second.resolve f)
  | .list items => .list (resolveItems f items)
  | .map entries => .map (resolveEntries f entries)
  | .held kind number => f kind number
  | value => value

def resolveItems (f : Collection → Nat → Value) : List Value → List Value
  | [] => []
  | item :: rest => item.resolve f :: resolveItems f rest

def resolveEntries (f : Collection → Nat → Value) : List (Value × Value) → List (Value × Value)
  | [] => []
  | (key, value) :: rest => (key, value.resolve f) :: resolveEntries f rest

end

mutual

def hold : Value → StateM Store Value
  | .pair first second => return .pair (← first.hold) (← second.hold)
  | .list items => do Store.add .list (.list (← holdItems items))
  | .map entries => do Store.add .map (.map (← holdEntries entries))
  | .members items => Store.add .members (.members items)
  | value => return value

def holdItems : List Value → StateM Store (List Value)
  | [] => return []
  | item :: rest => return (← item.hold) :: (← holdItems rest)

def holdEntries : List (Value × Value) → StateM Store (List (Value × Value))
  | [] => return []
  | (key, value) :: rest => return (key, ← value.hold) :: (← holdEntries rest)

end
end Value

structure Document where
  value : Value
  store : Store := #[]

instance : Coe Value Document := ⟨fun value => { value }⟩

namespace Document

def content (d : Document) : Value :=
  match d.value with
  | .held _ number => d.store[number]?.getD .null
  | value => value

def isMap (d : Document) : Bool :=
  match d.value with
  | .map _ | .held .map _ => true
  | _ => false

def isTruthy (d : Document) : Bool :=
  d.content.isTruthy

def kindName (d : Document) : Text :=
  d.value.kindName

def field? (name : Text) (d : Document) : Option Document :=
  (d.content.field? name).map ({ d with value := · })

def at? (d : Document) (path : List Text) : Option Document :=
  path.foldlM (fun d name => d.field? name) d

/-- The value with all collections in their places, but for those inside themselves. The fuel bounds
the nesting, and the numbers on the way stand in `above`. -/
def unfoldFrom (store : Store) : Nat → List Nat → Value → Value
  | 0, _, value => value
  | fuel + 1, above, value =>
    value.resolve fun kind number =>
      if above.contains number then .held kind number
      else unfoldFrom store fuel (number :: above) (store[number]?.getD .null)

def unfold (d : Document) : Value :=
  unfoldFrom d.store (d.store.size + 1) [] d.value

def display (d : Document) : Text :=
  d.unfold.display

def hold (d : Document) : Document :=
  let (value, store) := d.value.hold d.store
  { value, store }

end Document
end Transclusion
