import Transclusion.Scope
import Transclusion.Transform

/-!
This module contains the placeholders of a text, which are a dollar sign and a name in braces, and
their substitution. A name may be followed by a point and a transform. What has no value stays as it
is.
-/

namespace Transclusion
namespace Placeholder

def opening : Text := "$\x7b"

def plain (name : Text) : Text :=
  opening ++ name ++ "\x7d"

def transformLead (name : Text) : Text :=
  opening ++ name ++ "."

def transformAt? (name text : Text) : Option Text :=
  match (transformLead name).isPrefixOf? text with
  | none => none
  | some rest =>
    let word := rest.takeWhile Text.isWord
    if !word.isEmpty && (rest.drop word.length).head? == some '\x7d' then some word else none

def substituteTransformed (transforms : Transforms) (name value text : Text) : Text :=
  go 0 text
where
  go : Nat → Text → Text
    | _, [] => []
    | skip + 1, _ :: rest => go skip rest
    | 0, c :: rest =>
      match transformAt? name (c :: rest) with
      | none => c :: go 0 rest
      | some word =>
        let placeholder := transformLead name ++ word ++ "\x7d"
        let shown :=
          match transforms.get? word with
          | some transform => transform value
          | none => placeholder
        shown ++ go (placeholder.length - 1) rest

def substitute (transforms : Transforms) (text name value : Text) : Text :=
  substituteTransformed transforms name value (Text.replaceAll (plain name) value text)

def applyScope (transforms : Transforms) (text : Text) (scope : Scope) : Text :=
  scope.entries.foldl (fun text (name, value) => substitute transforms text name value) text

end Placeholder
end Transclusion
