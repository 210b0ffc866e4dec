import Transclusion.Decimal.Binary64
import Transclusion.Value.Moment

/-!
This module contains the values that data files hold. Mappings keep the order of their entries and
may have any scalar as a key; equal numbers are the same key, whatever their kind. Inside a value
there may be collections that a store holds, of which only the number is known.
-/

namespace Transclusion

inductive Collection
  | list
  | map
  | members
  deriving DecidableEq, Repr

inductive Value
  | null
  | bool (b : Bool)
  | int (n : Int)
  | float (x : Binary64)
  | text (t : Text)
  | date (d : Date)
  | moment (m : Moment)
  | bytes (b : List UInt8)
  | pair (first second : Value)
  | list (items : List Value)
  | map (entries : List (Value × Value))
  | members (items : List Value)
  | held (kind : Collection) (number : Nat)
  deriving Repr

instance : Inhabited Value := ⟨.null⟩

namespace Value

def integer? : Value → Option Int
  | .bool b => some (if b then 1 else 0)
  | .int n => some n
  | _ => none

/-- Equality of scalars as keys. A number that equals nothing is still the same key as itself.
Values that are no scalars are no keys. -/
def sameKey (a b : Value) : Bool :=
  match a, b with
  | .null, .null => true
  | .text s, .text t => s == t
  | .date d, .date e => d == e
  | .moment m, .moment n => m.coincides n
  | .bytes x, .bytes y => x == y
  | .float x, .float y => x.eqv y || x == y
  | .float x, other | other, .float x =>
    match other.integer? with
    | some n => x.eqInt n
    | none => false
  | _, _ =>
    match a.integer?, b.integer? with
    | some m, some n => m == n
    | _, _ => false

def isKey : Value → Bool
  | .pair _ _ | .list _ | .map _ | .members _ | .held _ _ => false
  | _ => true

def putEntry (key value : Value) : List (Value × Value) → List (Value × Value)
  | [] => [(key, value)]
  | (k, v) :: rest =>
    if k.sameKey key then (k, value) :: rest else (k, v) :: putEntry key value rest

def valueUnder? (key : Value) : List (Value × Value) → Option Value
  | [] => none
  | (k, v) :: rest => if k.sameKey key then some v else valueUnder? key rest

def assign (pairs : List (Value × Value)) : List (Value × Value) :=
  pairs.foldl (fun entries (key, value) => putEntry key value entries) []

def ofFields (fields : List (Text × Value)) : Value :=
  .map (fields.map fun (name, value) => (.text name, value))

def field? (name : Text) : Value → Option Value
  | .map entries => valueUnder? (.text name) entries
  | _ => none

def isMap : Value → Bool
  | .map _ => true
  | _ => false

def isTruthy : Value → Bool
  | .null => false
  | .bool b => b
  | .int n => n != 0
  | .float x => !x.isZero
  | .text t => !t.isEmpty
  | .bytes b => !b.isEmpty
  | .list items => !items.isEmpty
  | .map entries => !entries.isEmpty
  | .members items => !items.isEmpty
  | .date _ | .moment _ | .pair _ _ | .held _ _ => true

end Value

def Collection.name : Collection → Text
  | .list => "list"
  | .map => "dict"
  | .members => "set"

namespace Value

def kindName : Value → Text
  | .null => "NoneType"
  | .bool _ => "bool"
  | .int _ => "int"
  | .float _ => "float"
  | .text _ => "str"
  | .date _ => "date"
  | .moment _ => "datetime"
  | .bytes _ => "bytes"
  | .pair _ _ => "tuple"
  | .list _ => Collection.list.name
  | .map _ => Collection.map.name
  | .members _ => Collection.members.name
  | .held kind _ => kind.name

end Value
end Transclusion
