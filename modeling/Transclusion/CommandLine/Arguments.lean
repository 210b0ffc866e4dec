import Transclusion.CommandLine.Grammar

/-!
This module contains the command lines of the program: options for the whole, a command, and the
options of the command.
-/

namespace Transclusion
namespace CommandLine

structure DocumentOptions where
  target : Text
  overwrite : Bool
  json : Bool
  repoRoot : Option Text
  deriving DecidableEq, Repr

structure ExpandOptions extends DocumentOptions where
  includesFolder : Option Text
  variablesFile : Option Text
  recursive : Bool
  deriving DecidableEq, Repr

inductive Command
  | expand (options : ExpandOptions)
  | cleanup (options : DocumentOptions)
  deriving DecidableEq, Repr

structure Invocation where
  logLevel : Option Text
  command : Option Command
  deriving DecidableEq, Repr

inductive ProgramOption
  | help
  | version
  | logLevel
  deriving DecidableEq, Repr

inductive CommandOption
  | help
  | overwrite
  | json
  | repoRoot
  | includesFolder
  | variablesFile
  | recursive
  deriving DecidableEq, Repr

inductive CommandName
  | cleanup
  | expand
  deriving DecidableEq, Repr

namespace CommandName

def text : CommandName → Text
  | .cleanup => "cleanup"
  | .expand => "expand"

def all : List CommandName := [.cleanup, .expand]

def ofText? (text : Text) : Option CommandName :=
  all.find? (·.text == text)

end CommandName

def programName : Text := "powerups"

def programGrammar : Grammar ProgramOption where
  program := programName
  options := [
    ⟨.help, ["-h".toList, "--help".toList], .help⟩,
    ⟨.version, ["--version".toList], .version⟩,
    ⟨.logLevel, ["--log-level".toList], .argument⟩]
  operand := .rest
  operandName := "<command>"

def documentForms : List (OptionForm CommandOption) := [
  ⟨.help, ["-h".toList, "--help".toList], .help⟩,
  ⟨.overwrite, ["--overwrite".toList], .flag⟩,
  ⟨.json, ["--json".toList], .flag⟩,
  ⟨.repoRoot, ["--repo-root".toList], .argument⟩]

def expandForms : List (OptionForm CommandOption) := [
  ⟨.includesFolder, ["--includes-folder".toList, "--includesFolder".toList], .argument⟩,
  ⟨.variablesFile, ["--variables".toList], .argument⟩,
  ⟨.recursive, ["--recursive".toList], .flag⟩]

def commandGrammar (program : Text) (name : CommandName) : Grammar CommandOption where
  program
  options := documentForms ++ match name with | .cleanup => [] | .expand => expandForms
  operand := .single
  operandName := "target"

namespace Parsed

variable {κ : Type} [BEq κ]

def last? (p : Parsed κ) (key : κ) : Option Text :=
  p.settings.reverse.lookup key

def given (p : Parsed κ) (key : κ) : Bool :=
  (p.last? key).isSome

end Parsed

def commandOf (name : CommandName) (p : Parsed CommandOption) : Command :=
  let document : DocumentOptions :=
    { target := (p.operand.getD []).headD []
      overwrite := p.given .overwrite
      json := p.given .json
      repoRoot := p.last? .repoRoot }
  match name with
  | .cleanup => .cleanup document
  | .expand =>
    .expand
      { document with
        includesFolder := p.last? .includesFolder
        variablesFile := p.last? .variablesFile
        recursive := p.given .recursive }

def refuseExtras (program : Text) (extras : List Text) : Except Stop Unit :=
  if extras.isEmpty then .ok ()
  else
    .error (.misuse program ("unrecognized arguments: " ++ ([' '] : Text).intercalate extras))

def parseProgram (args : List Text) : Except Stop Invocation := do
  let p ← programGrammar.parse args
  let logLevel := p.last? .logLevel
  match p.operand with
  | some (word :: rest) =>
    match CommandName.ofText? word with
    | none =>
      throw (.misuse programName ("argument <command>: invalid choice: " ++ Text.quote word ++
        " (choose from " ++
        (", " : Text).intercalate (CommandName.all.map fun name => Text.quote name.text) ++ ")"))
    | some name =>
      let own ← (commandGrammar (programName ++ [' '] ++ name.text) name).parse rest
      refuseExtras programName (p.extras ++ own.extras)
      return { logLevel, command := some (commandOf name own) }
  | _ =>
    refuseExtras programName p.extras
    return { logLevel, command := none }

def parseCommand (name : CommandName) (args : List Text) : Except Stop Command := do
  let p ← (commandGrammar programName name).parse args
  refuseExtras programName p.extras
  return commandOf name p

def usage (program : Text) : Text :=
  let operands : Text :=
    if program = programName then " [options] <command> ..." else " [options] target"
  "usage: " ++ program ++ operands

end CommandLine
end Transclusion
