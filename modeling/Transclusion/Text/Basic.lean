/-!
This module contains texts as lists of code points, and the cutting and replacing that every other
module builds on. Offsets and lengths count code points.
-/

namespace Transclusion

abbrev Text := List Char

instance : Coe String Text := ⟨String.toList⟩

instance : LawfulBEq Text := inferInstance

namespace Text

/-- The text with every occurrence of `pattern` replaced, scanning from the left; occurrences do not
overlap and the replacement is not scanned again. An empty pattern occurs between any two
characters and at both ends. -/
def replaceAll (pattern replacement text : Text) : Text :=
  if pattern.isEmpty then replacement ++ text.flatMap (· :: replacement) else go 0 text
where
  go : Nat → Text → Text
    | _, [] => []
    | skip + 1, _ :: rest => go skip rest
    | 0, c :: rest =>
      if pattern.isPrefixOf (c :: rest) then replacement ++ go (pattern.length - 1) rest
      else c :: go 0 rest

def indexOf? (pattern : Text) : Text → Option Nat
  | [] => if pattern.isEmpty then some 0 else none
  | c :: rest =>
    if pattern.isPrefixOf (c :: rest) then some 0 else (indexOf? pattern rest).map (· + 1)

def cutAt? (separator text : Text) : Option (Text × Text) :=
  (indexOf? separator text).map fun i => (text.take i, text.drop (i + separator.length))

def splitOnText (separator text : Text) : List Text :=
  go 0 [] text
where
  go : Nat → Text → Text → List Text
    | _, part, [] => [part.reverse]
    | skip + 1, part, _ :: rest => go skip part rest
    | 0, part, c :: rest =>
      if separator.isPrefixOf (c :: rest) then part.reverse :: go (separator.length - 1) [] rest
      else go 0 (c :: part) rest

def slice (text : Text) (start stop : Nat) : Text :=
  (text.drop start).take (stop - start)

def trimBoth (p : Char → Bool) (text : Text) : Text :=
  ((text.dropWhile p).reverse.dropWhile p).reverse

def le : Text → Text → Bool
  | [], _ => true
  | _ :: _, [] => false
  | a :: as, b :: bs => a.toNat < b.toNat || (a == b && le as bs)

def ofNat (n : Nat) : Text :=
  Nat.toDigits 10 n

def ofInt (n : Int) : Text :=
  if n < 0 then '-' :: ofNat n.natAbs else ofNat n.natAbs

def ofNatPadded (width n : Nat) : Text :=
  let digits := ofNat n
  List.replicate (width - digits.length) '0' ++ digits

def ofNatHex (width n : Nat) : Text :=
  let digits := Nat.toDigits 16 n
  List.replicate (width - digits.length) '0' ++ digits

theorem isPrefixOf?_eq_some_iff {lead text rest : Text} :
    lead.isPrefixOf? text = some rest ↔ text = lead ++ rest := by
  induction lead generalizing text with
  | nil =>
    change some text = some rest ↔ _
    simp
  | cons a lead ih =>
    cases text with
    | nil =>
      change none = some rest ↔ _
      simp
    | cons b text =>
      change (if a == b then lead.isPrefixOf? text else none) = some rest ↔ _
      rw [List.cons_append, List.cons.injEq]
      by_cases h : a = b
      . simp [h, ih]
      . have h' : ¬ b = a := fun h' => h h'.symm
        simp [h, h']

end Text
end Transclusion
