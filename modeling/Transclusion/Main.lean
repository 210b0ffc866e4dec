import Std.Time.Zoned
import Transclusion.Command.Run
import Transclusion.Uuid

/-!
This module contains the program on a real machine: it reads the files that a command line may touch
into a file system, carries out the command there, and writes back what has changed.
-/

namespace Transclusion
namespace Machine

attribute [local instance] Surrogates.lastBlock

def stringOf (text : Text) : String :=
  String.ofList text

def pathOf (text : String) : Path :=
  Path.ofText text.toList

partial def gather (fs : FileSystem) (path : Path) : IO FileSystem := do
  try
    let real ← IO.FS.realPath (stringOf path.toText)
    if ← real.isDir then
      let mut fs := (fs.makeDirectories path).toOption.getD fs
      for child in ← real.readDir do
        fs ← gather fs (path.child child.fileName.toList)
      return fs
    else
      let bytes ← IO.FS.readBinFile real
      let fs := (fs.makeDirectories path.parent).toOption.getD fs
      return (fs.updateBytes path fun _ => bytes.toList).toOption.getD fs
  catch _ => return fs

def isDirectory (path : Path) : IO Bool := do
  try (← IO.FS.realPath (stringOf path.toText)).isDir catch _ => return false

def reach (fs : FileSystem) (path : Path) : IO FileSystem := do
  match fs.resolve path with
  | .error _ => return fs
  | .ok full =>
    let mut fs := fs
    for depth in List.range full.names.length do
      let above : Path := { full with names := full.names.take depth }
      if ← isDirectory above then
        fs := (fs.makeDirectories above).toOption.getD fs
    gather fs full

def settingsEnvironment : IO Scope := do
  let bytes ← try IO.FS.readBinFile "/proc/self/environ" catch _ => pure .empty
  let lines := (bytes.toList.splitOn 0).filterMap fun line => (Utf8.decode line).toOption
  let pairs := lines.filterMap fun line => Text.cutAt? ['='] line
  return .ofList (pairs.filter fun (name, _) => Configuration.variableLead.isPrefixOf name)

def now : IO Moment := do
  let t ← Std.Time.PlainDateTime.now
  return {
    date := {
      year := t.date.year.toInt.toNat
      month := t.date.month.val.toNat
      day := t.date.day.val.toNat }
    hour := t.time.hour.val.toNat
    minute := t.time.minute.val.toNat
    second := t.time.second.val.toNat
    microsecond := t.time.nanosecond.val.toNat / 1000
    offset := none }

def clockText (m : Moment) : Text :=
  ({ m with microsecond := 0 } : Moment).text ' ' ++ [','] ++
    Text.ofNatPadded 3 (m.microsecond / 1000)

def randomId (n : Nat) : Text :=
  uuidText (n &&& 0xffffffffffff0fff3fffffffffffffff ||| 0x40008000000000000000)

def usersHomes : IO Homes := do
  let lines ← try IO.FS.lines "/etc/passwd" catch _ => pure #[]
  return .ofList (lines.toList.filterMap fun line =>
    match line.toList.splitOn ':' with
    | name :: _ :: _ :: _ :: _ :: home :: _ => some (name, home)
    | _ => none)

def host : IO Host := do
  let seed := (← IO.getRandomBytes 16).toList.foldl (fun n b => n * 256 + b.toNat) 0
  let moment ← now
  return {
    homes := (← usersHomes).insert [] ((← IO.getEnv "HOME").getD "/").toList
    environment := ← settingsEnvironment
    ids := fun n => randomId (seed * (2 * n + 1))
    clock := clockText moment
    timestamp := moment.text 'T'
    console := .utf8 }

def pathsOf (host : Host) (fs : FileSystem) (command : CommandLine.Command) : IO FileSystem := do
  let o := Command.options command
  let root :=
    match o.repoRoot with
    | some (c :: text) => Path.ofText (c :: text)
    | _ => fs.workingDirectory
  let mut fs ← reach fs (root.child Configuration.projectFileName)
  let named : List Text :=
    match command with
    | .expand o => o.target :: (o.variablesFile.toList ++ o.includesFolder.toList)
    | .cleanup o => [o.target]
  for text in named do
    if let .ok path := (Path.ofText text).expandHome host.homes then
      fs ← reach fs path
  if let .ok config := ((Configuration.load fs root host.environment).run.run []).1 then
    for path? in [Configuration.folder host.homes root config,
        Configuration.logFile host.homes root config] do
      if let .ok (some path) := path? then
        fs ← reach fs path
  return fs

def writeBack (before after : FileSystem) : IO Unit := do
  for (names, entry) in after.tree.entries do
    let path : Path := { root := .slash, names }
    if before.tree.get? names != some entry then
      match entry with
      | .directory => IO.FS.createDirAll (stringOf path.toText)
      | .file bytes =>
        IO.FS.createDirAll (stringOf path.parent.toText)
        IO.FS.writeBinFile (stringOf path.toText) ⟨bytes.toArray⟩

end Machine
end Transclusion

attribute [local instance] Transclusion.Surrogates.lastBlock in
open Transclusion Machine in
def main (args : List String) : IO UInt32 := do
  let host ← host
  let args := args.map String.toList
  let cwd := pathOf (← IO.currentDir).toString
  let empty : FileSystem := { workingDirectory := cwd }
  let start := (empty.makeDirectories cwd).toOption.getD empty
  let before ←
    match CommandLine.parseProgram args with
    | .ok { command := some command, .. } => pathsOf host start command
    | _ => pure start
  let (result, session) := (Command.runProgram host args).run.run { files := before }
  writeBack before session.files
  IO.print (stringOf session.stdout)
  IO.eprint (stringOf session.stderr)
  match result with
  | .ok code => return UInt32.ofNat code
  | .error failure =>
    IO.eprintln (stringOf failure.message)
    return 1
