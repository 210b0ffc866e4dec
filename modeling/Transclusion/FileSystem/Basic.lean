import Transclusion.Path

/-!
This module contains file systems: the bytes of the files and the directories, by the names that
lead to them from the top, and the directory that relative paths begin at. Only `locate` says where
a path leads; everything else is reading and writing at that place.
-/

namespace Transclusion

inductive Entry
  | file (bytes : List UInt8)
  | directory
  deriving DecidableEq, Repr

abbrev FileTree := OrderedMap (List Text) Entry

namespace FileTree

def entryAt (t : FileTree) (names : List Text) : Option Entry :=
  if names.isEmpty then some .directory else t.get? names

def longestName : Nat := 255

def walk (t : FileTree) (here : List Text) : List Text → Except SystemFault (List Text)
  | [] => .ok here
  | name :: rest =>
    match t.entryAt here with
    | none => .error .missing
    | some (.file _) => .error .notDirectory
    | some .directory =>
      if name = Path.doublePoint then walk t here.dropLast rest
      else if longestName < (Utf8.encode name).length then .error .nameTooLong
      else walk t (here ++ [name]) rest

end FileTree

structure FileSystem where
  tree : FileTree := ∅
  workingDirectory : Path := { root := .slash, names := [] }

namespace FileSystem

variable [Surrogates]

def longestPath : Nat := 4095

def locate (fs : FileSystem) (p : Path) : Except Failure (List Text) :=
  if p.isImpossible then .error (Path.impossibility p.toText)
  else if longestPath < (Utf8.encode p.toText).length then .error (.system .nameTooLong p.toText)
  else
    match fs.tree.walk [] (fs.workingDirectory.join p).names with
    | .ok names => .ok names
    | .error fault => .error (.system fault p.toText)

def find? (fs : FileSystem) (p : Path) : Except Failure (Option Entry) :=
  match fs.locate p with
  | .ok names => .ok (fs.tree.entryAt names)
  | .error .nullInPath | .error (.unencodable _) | .error (.system .missing _)
  | .error (.system .notDirectory _) => .ok none
  | .error failure => .error failure

def resolve (fs : FileSystem) (p : Path) : Except Failure Path :=
  Path.resolve fs.workingDirectory p

/-! ## Files -/

def readBytes (fs : FileSystem) (p : Path) : Except Failure (List UInt8) := do
  match fs.tree.entryAt (← fs.locate p) with
  | some (.file bytes) => return bytes
  | some .directory => throw (.system .isDirectory p.toText)
  | none => throw (.system .missing p.toText)

def updateBytes (fs : FileSystem) (p : Path) (f : List UInt8 → List UInt8) :
    Except Failure FileSystem := do
  let names ← fs.locate p
  match fs.tree.entryAt names with
  | some .directory => throw (.system .isDirectory p.toText)
  | some (.file bytes) => return { fs with tree := fs.tree.insert names (.file (f bytes)) }
  | none => return { fs with tree := fs.tree.insert names (.file (f [])) }

def readText (fs : FileSystem) (p : Path) : Except Failure Text := do
  if (← fs.find? p).isNone then throw (.textFileMissing p.toText)
  match Utf8.decodeLines (← fs.readBytes p) with
  | .ok text => return text
  | .error fault => throw (.undecodable p.toText fault.message)

def appendText (fs : FileSystem) (p : Path) (text : Text) : Except Failure FileSystem := do
  Encoding.utf8.check text
  fs.updateBytes p (· ++ Utf8.encode text)

/-! ## Directories -/

def makeDirectory (fs : FileSystem) (p : Path) : Except Failure FileSystem := do
  let names ← fs.locate p
  if (fs.tree.entryAt names).isSome then throw (.system .exists p.toText)
  return { fs with tree := fs.tree.insert names .directory }

def makeDirectoryIfNew (fs : FileSystem) (p : Path) : Except Failure FileSystem :=
  match fs.makeDirectory p with
  | .error (.system fault path) => do
    match ← fs.find? p with
    | some .directory => return fs
    | _ => throw (.system fault path)
  | result => result

def makeDirectories (fs : FileSystem) (p : Path) : Except Failure FileSystem :=
  go p.names.reverse
where
  go : List Text → Except Failure FileSystem
    | [] => fs.makeDirectoryIfNew { p with names := [] }
    | name :: above =>
      let here : Path := { p with names := (name :: above).reverse }
      match fs.makeDirectory here with
      | .error (.system .missing _) => do (← go above).makeDirectoryIfNew here
      | _ => fs.makeDirectoryIfNew here

def ensureDirectory (fs : FileSystem) (p : Path) (create : Bool) : Except Failure FileSystem := do
  match ← fs.find? p with
  | some .directory => return fs
  | some (.file _) => throw (.notDirectory p.toText)
  | none => if create then fs.makeDirectories p else throw (.directoryMissing p.toText)

def truncate (fs : FileSystem) (p : Path) : Except Failure FileSystem := do
  let fs ← fs.makeDirectories p.parent
  fs.updateBytes p fun _ => []

end FileSystem
end Transclusion
