import Transclusion.Configuration.Loading
import Transclusion.FileSystem.Listing
import Transclusion.Log.Channel
import Transclusion.Preprocess

/-!
This module contains what commands work on: a file system, the log, the two outputs, and the ids
that regions got so far. An action keeps what it did even where it fails.
-/

namespace Transclusion

structure Host where
  homes : Homes
  environment : Scope := ∅
  ids : Nat → Text
  clock : Text
  timestamp : Text
  console : Encoding

structure Session where
  files : FileSystem
  channel : Log.Channel := {}
  stdout : Text := []
  stderr : Text := []
  idsDrawn : Nat := 0

variable [Surrogates]

abbrev Action := ExceptT Failure (StateM Session)

def FileSystem.library (fs : FileSystem) (index : SourceIndex) : Library where
  index
  read := fs.readText
  readVariables := fs.readVariables

namespace Action

def inspect {α : Type} (f : FileSystem → Except Failure α) : Action α := do
  ofExcept (f (← get).files)

def change (f : FileSystem → Except Failure FileSystem) : Action Unit := do
  let files ← inspect f
  modify fun s => { s with files }

/-- Puts a text into a file, in place of what it held. The file is empty already when the text is
encoded, and stays so if that fails. -/
def writeText (p : Path) (text : Text) : Action Unit := do
  change (·.truncate p)
  ofExcept (Encoding.utf8.check text)
  change (·.updateBytes p fun _ => Utf8.encode text)

def print (host : Host) (text : Text) : Action Unit := do
  ofExcept (host.console.check text)
  modify fun s => { s with stdout := s.stdout ++ text }

-- The errors take every text: what their encoding lacks is escaped.
def complain (text : Text) : Action Unit :=
  modify fun s => { s with stderr := s.stderr ++ text }

/-! ## The log -/

-- A record that cannot be written is dropped. What the logging library then tells of it on the errors
-- is left out.
def deliverTo (clock : Text) (r : Log.Record) (s : Session) : Log.Route → Session
  | .bare => { s with stderr := s.stderr ++ r.message ++ ['\n'] }
  | .line .errors => { s with stderr := s.stderr ++ r.line clock }
  | .line (.file path) =>
    match s.files.appendText path (r.line clock) with
    | .ok files => { s with files }
    | .error _ => s

def deliver (clock : Text) (r : Log.Record) (s : Session) : Session :=
  (s.channel.routes r).foldl (deliverTo clock r) s

def log (host : Host) (r : Log.Record) : Action Unit :=
  modify (deliver host.clock r)

def info (host : Host) (source message : Text) : Action Unit :=
  log host { level := Log.info, source, message }

def openTarget : Log.Target → Action Unit
  | .errors => return ()
  | .file path => do
    change (·.ensureDirectory path.parent true)
    change (·.appendText path [])

def updateChannel (f : Log.Channel → Log.Channel) : Action Unit :=
  modify fun s => { s with channel := f s.channel }

def targetOf : Option Path → Action Log.Target
  | some path => do return .file (← inspect (·.resolve path))
  | none => return .errors

/-- Sends the log to a file, or else to the errors, from the level of the given name on. A handler
with the same target stays; any other one is gone even if the new one fails. -/
def configureLog (level : Text) (path : Option Path) : Action Unit := do
  let target ← targetOf path
  let level := Log.levelOfText level
  updateChannel (·.setLevel level)
  if (← get).channel.serves target then updateChannel (·.setHandlerLevel level)
  else
    updateChannel (·.detach)
    openTarget target
    updateChannel (·.attach target level)

def resetLog : Action Unit :=
  updateChannel (·.reset)

/-! ## Configuration and expansion -/

def loadConfiguration (host : Host) (root : Path) : Action Document := do
  let (result, records) := (Configuration.load (← get).files root host.environment).run.run []
  records.forM (log host)
  ofExcept result

def carryOut {α : Type} (host : Host) (document : Text) (step : Expansion.Run α) :
    Action (α × Report) := do
  let (result, progress) := Preprocess.start document (← get).idsDrawn step
  modify fun s => { s with idsDrawn := progress.idsDrawn }
  progress.log.forM (log host)
  return (← ofExcept result, progress.report)

def sources (host : Host) (directory : Path) (selection : Selection) : Action SourceIndex := do
  let index ← inspect (·.sources directory selection)
  log host (FileSystem.sourcesRecord directory index)
  return index

def cleanup (host : Host) (document text : Text) : Action (Text × Report) :=
  carryOut host document (Preprocess.cleanup text)

def process (host : Host) (settings : Expansion.Settings) (index : SourceIndex) (globals : Scope)
    (document text : Text) : Action (Text × Report) := do
  let library := (← get).files.library index
  carryOut host document (Preprocess.process { settings, library, ids := host.ids } globals text)

end Action
end Transclusion
