import Transclusion.Json.Fault
import Transclusion.OrderedMap
import Transclusion.Text.Utf8
import Transclusion.Value.Display

/-!
This module contains everything that can go wrong, by cause, and what is told about it: a message
for every failure, and a code and a context for those that the library itself reports.
-/

namespace Transclusion

abbrev Context := OrderedMap Text Value

inductive SystemFault
  | missing
  | exists
  | notDirectory
  | isDirectory
  | nameTooLong
  deriving DecidableEq, Repr

namespace SystemFault

def number : SystemFault → Nat
  | .missing => 2
  | .exists => 17
  | .notDirectory => 20
  | .isDirectory => 21
  | .nameTooLong => 36

def message : SystemFault → Text
  | .missing => "No such file or directory"
  | .exists => "File exists"
  | .notDirectory => "Not a directory"
  | .isDirectory => "Is a directory"
  | .nameTooLong => "File name too long"

end SystemFault

inductive VariablesFault
  | malformed (path : Text) (fault : Json.Fault)
  | mismatch (source : Text) (key : Option Text) (found : Value)
  | stated (message : Text) (context : Context)

inductive SettingsFault
  | invalidFile (path detail : Text)
  | notMapping (path kind : Text)
  | depthNotInteger (found : Value)
  | depthNegative (depth : Int)
  | stated (message : Text) (context : Context)

inductive Failure
  | general (message : Text) (context : Context)
  | includeNotFound (name role : Text) (context : Context)
  | invalidVariables (fault : VariablesFault)
  | circularInclude (chain : List Text) (maxDepth : Int)
  | undecodable (path reason : Text)
  | settings (fault : SettingsFault)
  | textFileMissing (path : Text)
  | fileMissing (path : Text)
  | directoryMissing (path : Text)
  | notDirectory (path : Text)
  | system (fault : SystemFault) (path : Text)
  | json (fault : Json.Fault)
  | yaml
  | notUtf8 (fault : Utf8.Fault)
  | noMapping
  | wrongKind
  | unknownWord
  | outOfRange
  | emptyNumber
  | tooLong
  | tooDeep
  | unknownHome
  | nullInPath
  | unencodable (message : Text)
  | invalidValue (message : Text)

inductive Family
  | reported
  | missingFile
  | system
  | invalidValue
  | recursion
  | runtime
  deriving DecidableEq, Repr

namespace VariablesFault

def location (key : Option Text) : Text :=
  match key with
  | some key => if key.isEmpty then "<root>" else key
  | none => "<root>"

def message : VariablesFault → Text
  | .malformed path fault => "Malformed JSON in " ++ path ++ ": " ++ fault.message
  | .mismatch source key found =>
    let expected : Text := if key.isSome then "string" else "object"
    "Invalid variables in " ++ source ++ " at " ++ location key ++ ": " ++ found.quoted ++
      " is not of type '" ++ expected ++ "'"
  | .stated message _ => message

def context : VariablesFault → Context
  | .malformed path _ => (∅ : Context).insert "path" (.text path)
  | .mismatch source key _ =>
    ((∅ : Context).insert "path" (.text source)).insert "location" (.text (location key))
  | .stated _ context => context

end VariablesFault

namespace SettingsFault

def message : SettingsFault → Text
  | .invalidFile path detail => "Invalid YAML in " ++ path ++ ": " ++ detail
  | .notMapping path kind =>
    "Configuration in " ++ path ++ " must be a mapping, got " ++ kind
  | .depthNotInteger found => "expansion.max_depth must be an integer, got " ++ found.quoted
  | .depthNegative depth =>
    "expansion.max_depth must not be negative, got " ++ Text.ofInt depth
  | .stated message _ => message

def context : SettingsFault → Context
  | .invalidFile path _ | .notMapping path _ => (∅ : Context).insert "path" (.text path)
  | .depthNotInteger _ | .depthNegative _ =>
    (∅ : Context).insert "key" (.text "expansion.max_depth")
  | .stated _ context => context

end SettingsFault

namespace Failure

def message : Failure → Text
  | .general message _ => message
  | .includeNotFound name _ _ => name ++ " not found!"
  | .invalidVariables fault => fault.message
  | .circularInclude chain maxDepth =>
    "Include depth limit (" ++ Text.ofInt maxDepth ++
      ") exceeded, probable circular include: " ++ (" -> " : Text).intercalate chain
  | .undecodable path reason =>
    let because : Text := if reason.isEmpty then [] else ": " ++ reason
    "Cannot decode " ++ path ++ " as UTF-8" ++ because
  | .settings fault => fault.message
  | .textFileMissing path => "Text file not found: " ++ path
  | .fileMissing path => "File not found: " ++ path
  | .directoryMissing path => "Directory does not exist: " ++ path
  | .notDirectory path => "Path exists but is not a directory: " ++ path
  | .system fault path =>
    "[Errno " ++ Text.ofNat fault.number ++ "] " ++ fault.message ++ ": " ++ Text.quote path
  | .json fault => fault.message
  | .yaml => "invalid YAML"
  | .notUtf8 fault => fault.message
  | .noMapping => "not a mapping"
  | .wrongKind => "a value of the wrong kind"
  | .unknownWord => "an unknown word"
  | .outOfRange => "a number out of range"
  | .emptyNumber => "string index out of range"
  | .tooLong => []
  | .tooDeep => "maximum recursion depth exceeded"
  | .unknownHome => "Could not determine home directory."
  | .nullInPath => "embedded null byte"
  | .unencodable message | .invalidValue message => message

def context : Failure → Context
  | .general _ context => context
  | .includeNotFound name role context =>
    (context.insert "name" (.text name)).insert "kind" (.text role)
  | .invalidVariables fault => fault.context
  | .circularInclude chain maxDepth =>
    ((∅ : Context).insert "chain" (.list (chain.map .text))).insert "max_depth" (.int maxDepth)
  | .undecodable path _ => (∅ : Context).insert "path" (.text path)
  | .settings fault => fault.context
  | _ => ∅

def code? : Failure → Option Text
  | .general _ _ => some "PowerUpsError"
  | .includeNotFound _ _ _ => some "IncludeNotFoundError"
  | .invalidVariables _ => some "VariablesParseError"
  | .circularInclude _ _ => some "CircularIncludeError"
  | .undecodable _ _ => some "FileDecodeError"
  | .settings _ => some "ConfigError"
  | _ => none

def families : Failure → List Family
  | .general _ _ => [.reported]
  | .includeNotFound _ _ _ => [.reported, .missingFile, .system]
  | .invalidVariables _ => [.reported, .invalidValue]
  | .circularInclude _ _ => [.reported, .recursion, .runtime]
  | .undecodable _ _ => [.reported, .invalidValue]
  | .settings _ => [.reported, .invalidValue]
  | .textFileMissing _ | .fileMissing _ | .directoryMissing _ => [.missingFile, .system]
  | .system .missing _ => [.missingFile, .system]
  | .notDirectory _ | .system _ _ => [.system]
  | .json _ | .notUtf8 _ | .nullInPath | .unencodable _ | .invalidValue _ => [.invalidValue]
  | .unknownHome => [.runtime]
  | .tooDeep => [.recursion, .runtime]
  | .yaml | .noMapping | .wrongKind | .unknownWord | .outOfRange | .emptyNumber | .tooLong => []

def isHandled (f : Failure) : Bool :=
  f.families.contains .reported || f.families.contains .system

def report (f : Failure) : Value :=
  .ofFields [("message".toList, .text f.message), ("code".toList, .text (f.code?.getD [])),
    ("context".toList, .ofFields f.context.entries)]

end Failure
end Transclusion
