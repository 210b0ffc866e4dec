import Transclusion.Command.Session
import Transclusion.CommandLine.Arguments
import Transclusion.Configuration.Expansion
import Transclusion.Output

/-!
This module contains the commands: the expansion and the cleaning of a document, and the program
that reads the command line, sets up the log, and carries out a command.
-/

namespace Transclusion
namespace Command

open Transclusion.Action CommandLine

variable [Surrogates]

def separatorLine : Text :=
  List.replicate 33 '-'

def repoRoot : Option Text → Action Path
  | some (c :: text) => inspect (·.resolve (Path.ofText (c :: text)))
  | _ => return (← get).files.workingDirectory

def documentPath (host : Host) (target : Text) : Action Path := do
  let path ← ofExcept ((Path.ofText target).expandHome host.homes)
  inspect (·.resolve path)

def emit (host : Host) (o : DocumentOptions) (target : Path) (text : Text) (report : Report) :
    Action Unit := do
  if o.overwrite then
    info host "powerups.cli._utils" ("Overwrites source file " ++ target.toText)
    writeText target text
  if o.json then
    print host (Output.success { json := true }
      [("file".toList, .text target.toText),
        ("overwritten".toList, .bool o.overwrite),
        ("content".toList, if o.overwrite then .null else .text text),
        ("report".toList, report.toValue host.timestamp)]
      [] "success")
  else if o.overwrite then print host (Output.line ("Overwrote " ++ target.toText))
  else
    print host (Output.line separatorLine)
    print host (Output.line text)

def reporting (json : Bool) (code : Text) (action : Action Unit) : Action Nat :=
  tryCatch (do
      action
      return 0)
    fun failure => do
      if failure.isHandled then
        complain (Output.failure { json } failure [] code)
        return 1
      else throw failure

def cleanupSource : Text := "powerups.cli.commands.cleanup"

def cleanup (host : Host) (o : DocumentOptions) : Action Unit := do
  let target ← documentPath host o.target
  info host cleanupSource ("File: " ++ target.toText)
  let text ← inspect (·.readText target)
  let (result, report) ← Action.cleanup host target.toText text
  info host cleanupSource
    ("Removed " ++ Text.ofNat report.regionsRemoved ++ " generated region(s)")
  emit host o target result report

def expandSource : Text := "powerups.cli.commands.expand"

def globalVariables (host : Host) : Option Text → Action Scope
  | some (c :: text) => do
    let path ← ofExcept ((Path.ofText (c :: text)).expandHome host.homes)
    info host expandSource ("Global variables: " ++ path.toText)
    inspect (·.readVariables path)
  | _ => return ∅

def includesFolder (host : Host) (root : Path) (config : Document) :
    Option Text → Action (Option Path)
  | some (c :: text) => do
    return some (← ofExcept ((Path.ofText (c :: text)).expandHome host.homes))
  | _ => ofExcept (Configuration.folder host.homes root config)

def cleanOnly (host : Host) (target : Path) (text : Text) : Action (Text × Report) := do
  log host
    { level := Log.warning
      source := expandSource
      message := "No includes folder given, skipping include expansion" }
  let (result, report) ← Action.cleanup host target.toText text
  return (result, report.addWarning "No includes folder given, include expansion skipped")

def expandFrom (host : Host) (config : Document) (recursive : Bool) (globals : Scope)
    (folder target : Path) (text : Text) : Action (Text × Report) := do
  info host expandSource ("Includes folder: " ++ folder.toText)
  let recursive ←
    if recursive then pure true else ofExcept (Configuration.recursive config)
  let includeHidden ← ofExcept (Configuration.includeHidden config)
  let index ← sources host folder { recursive, includeHidden }
  let settings ← ofExcept (Configuration.expansionSettings config)
  let (result, report) ← process host settings index globals target.toText text
  info host expandSource report.summary
  return (result, report)

def expand (host : Host) (o : ExpandOptions) : Action Unit := do
  let root ← repoRoot o.repoRoot
  let config ← loadConfiguration host root
  let target ← documentPath host o.target
  info host expandSource ("File: " ++ target.toText)
  let text ← inspect (·.readText target)
  let globals ← globalVariables host o.variablesFile
  let (result, report) ←
    match ← includesFolder host root config o.includesFolder with
    | none => cleanOnly host target text
    | some folder => expandFrom host config o.recursive globals folder target text
  emit host o.toDocumentOptions target result report

def run (host : Host) : CommandLine.Command → Action Nat
  | .expand o => reporting o.json "expand_error" (expand host o)
  | .cleanup o => reporting o.json "cleanup_error" (cleanup host o)

/-! ## The program -/

def options : CommandLine.Command → DocumentOptions
  | .expand o => o.toDocumentOptions
  | .cleanup o => o

def logSettings (host : Host) (level : Text) (o : DocumentOptions) : Action (Text × Option Path) :=
  tryCatch (do
      let root ← repoRoot o.repoRoot
      let config ← loadConfiguration host root
      let level ← if level.isEmpty then ofExcept (Configuration.logLevel config) else pure level
      let path ← ofExcept (Configuration.logFile host.homes root config)
      return (level, path))
    fun
      | .settings _ => return (if level.isEmpty then "WARNING" else level, none)
      | failure => throw failure

def halt (host : Host) : Stop → Action Nat
  | .help program => do
    print host (Output.line (usage program))
    return 0
  | .version => do
    print host (Output.line (programName ++ " 1.0.0"))
    return 0
  | .misuse program message => do
    complain (Output.line (usage program) ++ Output.line (program ++ ": error: " ++ message))
    return 2

def runProgram (host : Host) (args : List Text) : Action Nat := do
  match parseProgram args with
  | .error stop => halt host stop
  | .ok { command := none, .. } => halt host (.help programName)
  | .ok { command := some command, logLevel } => do
    let (level, path) ← logSettings host (logLevel.getD []) (options command)
    configureLog level path
    log host
      { level := Log.debug
        source := "powerups.cli._dispatcher"
        message := "Invocation: " ++ ([' '] : Text).intercalate args }
    run host command

def runCommand (host : Host) (name : CommandName) (args : List Text) : Action Nat :=
  match parseCommand name args with
  | .error stop => halt host stop
  | .ok command => run host command

end Command
end Transclusion
