import Transclusion.Encoding

/-!
This module contains paths: a root and the names below it. Reading a path drops empty names and
single points but keeps double points, which are only taken away by `Path.resolve`.
-/

namespace Transclusion

/-- Where a path begins: at the place it is used from, or at the top. Two slashes in front, but not
three, are told apart from one. -/
inductive PathRoot
  | none
  | slash
  | doubleSlash
  deriving DecidableEq, Repr

def PathRoot.text : PathRoot → Text
  | .none => []
  | .slash => "/"
  | .doubleSlash => "//"

structure Path where
  root : PathRoot
  names : List Text
  deriving DecidableEq, Repr

/-- The home directories of users. The present user has the empty name. -/
abbrev Homes := OrderedMap Text Text

namespace Path

def point : Text := "."

def doublePoint : Text := ".."

def rootOf : Text → PathRoot
  | '/' :: '/' :: '/' :: _ => .slash
  | '/' :: '/' :: _ => .doubleSlash
  | '/' :: _ => .slash
  | _ => .none

def ofText (text : Text) : Path where
  root := rootOf text
  names := (text.splitOn '/').filter fun name => !name.isEmpty && name != point

def toText (p : Path) : Text :=
  if p.root = .none && p.names.isEmpty then point
  else p.root.text ++ (['/'] : Text).intercalate p.names

def isAbsolute (p : Path) : Bool :=
  p.root != .none

def join (p q : Path) : Path :=
  if q.isAbsolute then q else { p with names := p.names ++ q.names }

def child (p : Path) (name : Text) : Path :=
  { p with names := p.names ++ [name] }

def parent (p : Path) : Path :=
  { p with names := p.names.dropLast }

def name (p : Path) : Text :=
  p.names.getLast?.getD []

section Possible

variable [Surrogates]

def isImpossibleChar (c : Char) : Bool :=
  c == '\x00' || !Encoding.fileNames.takes c

def impossibility (text : Text) : Failure :=
  if text.all Encoding.fileNames.takes then .nullInPath
  else .unencodable (Encoding.fileNames.complaint text)

def isImpossible (p : Path) : Bool :=
  p.names.any (·.any isImpossibleChar)

def expandHome (homes : Homes) (p : Path) : Except Failure Path :=
  match p.root, p.names with
  | .none, ('~' :: user) :: rest =>
    if user.any isImpossibleChar then .error (impossibility user)
    else
      match (homes.get? user).map fun home => (home.reverse.dropWhile (· == '/')).reverse with
      | none | some ('~' :: _) => .error .unknownHome
      | some home =>
        let start := ofText (if home.isEmpty then ['/'] else home)
        .ok { start with names := start.names ++ rest }
  | _, _ => .ok p

def collapse (names : List Text) : List Text :=
  names.foldl (fun kept name => if name = doublePoint then kept.dropLast else kept ++ [name]) []

def resolve (cwd p : Path) : Except Failure Path :=
  if p.isImpossible then .error (impossibility p.toText)
  else .ok { root := .slash, names := collapse (cwd.join p).names }

end Possible

end Path
end Transclusion
