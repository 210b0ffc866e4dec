import Transclusion.Value.Basic

/-!
This module contains the report of a run: what was included, what was skipped and why, and how many
regions came and went.
-/

namespace Transclusion

inductive SkipReason
  | missingInclude
  | conditionFalse
  deriving DecidableEq, Repr

structure Report where
  document : Text := "<memory>"
  includesResolved : List Text := []
  variablesFilesLoaded : List Text := []
  skipped : List (Text × Text) := []
  regionsInserted : Nat := 0
  regionsRemoved : Nat := 0
  maxDepthReached : Nat := 0
  warnings : List Text := []
  deriving DecidableEq, Repr

def SkipReason.text : SkipReason → Text
  | .missingInclude => "missing-include"
  | .conditionFalse => "condition-false"

namespace Report

def recordInclude (r : Report) (name : Text) (depth : Nat) : Report :=
  { r with
    includesResolved := r.includesResolved ++ [name]
    maxDepthReached := max r.maxDepthReached depth }

def recordVariablesFile (r : Report) (name : Text) : Report :=
  { r with variablesFilesLoaded := r.variablesFilesLoaded ++ [name] }

def recordSkip (r : Report) (directive reason : Text) : Report :=
  { r with skipped := r.skipped ++ [(directive, reason)] }

def addWarning (r : Report) (message : Text) : Report :=
  { r with warnings := r.warnings ++ [message] }

def hasIssues (r : Report) : Bool :=
  !r.warnings.isEmpty

def toValue (r : Report) (timestamp : Text) : Value :=
  let texts (items : List Text) : Value := .list (items.map .text)
  .ofFields [
    ("document".toList, .text r.document),
    ("timestamp".toList, .text timestamp),
    ("includes_resolved".toList, texts r.includesResolved),
    ("variables_files_loaded".toList, texts r.variablesFilesLoaded),
    ("skipped".toList, .list (r.skipped.map fun (directive, reason) =>
      .ofFields [("directive".toList, .text directive), ("reason".toList, .text reason)])),
    ("regions_inserted".toList, .int r.regionsInserted),
    ("regions_removed".toList, .int r.regionsRemoved),
    ("max_depth_reached".toList, .int r.maxDepthReached),
    ("warnings".toList, texts r.warnings)]

def summary (r : Report) : Text :=
  let lines : List Text := [
    "Expansion Report: " ++ r.document,
    "  Includes: " ++ Text.ofNat r.includesResolved.length ++ " (max depth " ++
      Text.ofNat r.maxDepthReached ++ ")",
    "  Variables files: " ++ Text.ofNat r.variablesFilesLoaded.length,
    "  Regions: " ++ Text.ofNat r.regionsInserted ++ " inserted, " ++
      Text.ofNat r.regionsRemoved ++ " removed",
    "  Skipped: " ++ Text.ofNat r.skipped.length]
  let warnings : List Text :=
    if r.warnings.isEmpty then []
    else ("  Warnings: " ++ Text.ofNat r.warnings.length) ::
      (r.warnings.take 3).map fun warning => "    - " ++ warning
  (['\n'] : Text).intercalate (lines ++ warnings)

end Report
end Transclusion
