import Transclusion.FileSystem.Basic
import Transclusion.Log.Record
import Transclusion.SourceIndex

/-!
This module contains the listing of the files in a directory, in the order of their paths name by
name, and the index that a listing gives.
-/

namespace Transclusion

structure Selection where
  recursive : Bool := false
  includeHidden : Bool := false
  deriving DecidableEq, Repr

def isHiddenName (name : Text) : Bool :=
  name.head? == some '.'

def Selection.admits (s : Selection) (names : List Text) : Bool :=
  (s.recursive || names.length == 1) && (s.includeHidden || !names.any isHiddenName)

def namesLe : List Text → List Text → Bool
  | [], _ => true
  | _ :: _, [] => false
  | a :: as, b :: bs => if a = b then namesLe as bs else Text.le a b

def FileTree.filesBelow (t : FileTree) (directory : List Text) : List (List Text) :=
  t.entries.filterMap fun
    | (names, .file _) => directory.isPrefixOf? names
    | (_, .directory) => none

namespace FileSystem

variable [Surrogates]

def listFiles (fs : FileSystem) (directory : Path) (selection : Selection) :
    Except Failure (List (Text × Path)) := do
  let fs ← fs.ensureDirectory directory false
  let files := fs.tree.filesBelow (← fs.locate directory)
  let sorted := (files.filter selection.admits).mergeSort namesLe
  return sorted.map fun names =>
    let path : Path := { directory with names := directory.names ++ names }
    (path.name, path)

def sources (fs : FileSystem) (directory : Path) (selection : Selection) :
    Except Failure SourceIndex := do
  return SourceIndex.ofEntries (← fs.listFiles directory selection)

def sourcesRecord (directory : Path) (index : SourceIndex) : Log.Record where
  level := Log.debug
  source := "powerups.core.expansion.index"
  message := "Indexed " ++ Text.ofNat index.size ++ " file(s) from " ++ directory.toText

end FileSystem
end Transclusion
