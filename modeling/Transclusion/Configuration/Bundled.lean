import Transclusion.Value.Basic

/-!
This module contains the data that comes with the program: the default configuration and the schema
of variables files.
-/

namespace Transclusion
namespace Configuration

def defaults : Value :=
  .ofFields [
    ("expansion".toList, .ofFields [
      ("nesting_indent".toList, .text [' ', ' ']),
      ("max_depth".toList, .int 64)]),
    ("index".toList, .ofFields [
      ("folder".toList, .null),
      ("recursive".toList, .bool false),
      ("include_hidden".toList, .bool false)]),
    ("logging".toList, .ofFields [
      ("level".toList, .text "WARNING".toList),
      ("file".toList, .null)])]

def variablesSchema : Value :=
  .ofFields [
    ("$schema".toList, .text "https://json-schema.org/draft/2020-12/schema".toList),
    ("title".toList, .text "Variables file".toList),
    ("description".toList,
      .text "Flat JSON object mapping variable names to string values.".toList),
    ("type".toList, .text "object".toList),
    ("additionalProperties".toList, .ofFields [("type".toList, .text "string".toList)])]

def bundled? (folder name : Text) : Option Value :=
  if folder = "config".toList ∧ name = "defaults.yaml".toList then some defaults
  else if folder = "schemas".toList ∧ name = "variables.schema.yaml".toList then
    some variablesSchema
  else none

end Configuration
end Transclusion
