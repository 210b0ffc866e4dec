import Transclusion.Directive.Parameters
import Transclusion.Failure
import Transclusion.Log.Record
import Transclusion.Placeholder
import Transclusion.Region
import Transclusion.Report
import Transclusion.SourceIndex

/-!
This module contains the expansion of documents: after every directive comes a block with the
content of the file it names, in which the variables are substituted and whose own directives are
expanded in turn. Only the blocks of the document itself are wrapped in region markers.
-/

namespace Transclusion

structure Library where
  index : SourceIndex
  read : Path → Except Failure Text
  readVariables : Path → Except Failure Scope

namespace Expansion

/-- How deep inclusions can be nested whatever the settings allow: there is room for 1000 nested calls,
each level takes two of them, and twenty are left for those around the expansion and inside a level. -/
def deepestNesting : Nat := 490

structure Settings where
  nestingIndent : Text := [' ', ' ']
  maxDepth : Int := 64
  nestingLimit : Nat := deepestNesting
  transforms : Transforms := Transforms.standard

def Settings.levels (s : Settings) : Nat :=
  min s.maxDepth.toNat s.nestingLimit

structure Environment where
  settings : Settings := {}
  library : Library
  ids : Nat → Text

structure Progress where
  report : Report := {}
  idsDrawn : Nat := 0
  log : List Log.Record := []

abbrev Run := ExceptT Failure (StateM Progress)

def Run.exec {α : Type} (step : Run α) (p : Progress) : Except Failure α × Progress :=
  step.run.run p

def source : Text := "powerups.core.expansion.engine"

def updateReport (f : Report → Report) : Run Unit :=
  modify fun p => { p with report := f p.report }

def log (level : Int) (message : Text) : Run Unit :=
  modify fun p => { p with log := p.log ++ [{ level, source, message }] }

def drawId (ids : Nat → Text) : Run Text :=
  modifyGet fun p => (ids p.idsDrawn, { p with idsDrawn := p.idsDrawn + 1 })

def loadVariables (library : Library) (name : Text) : Run Scope := do
  match library.index.get? name with
  | none => throw (.includeNotFound name "variables" ∅)
  | some path =>
    -- A file that cannot be read is reported all the same.
    updateReport (·.recordVariablesFile name)
    ofExcept (library.readVariables path)

def localScope (library : Library) (inherited : Scope) (p : Parameters) : Run Scope := do
  let scope := inherited.merge p.bindings
  match p.variablesFile with
  | none => return scope
  | some name => return scope.merge (← loadVariables library name)

def sides? (condition : Text) : Option (Text × Text) :=
  Text.cutAt? ['=', '='] condition

def conditionHolds (d : Directive) : Option Text → Run Bool
  | none => return true
  | some condition =>
    match sides? condition with
    | some (left, right) => return Text.strip left == Text.strip right
    | none => do
      -- A condition without sides is no reason to leave the directive out.
      updateReport (·.addWarning ("Ignoring where condition without '==': " ++
        Text.quote condition ++ " in " ++ d.text))
      return true

structure Inclusion where
  name : Text
  path : Path
  scope : Scope

def variablesNote (p : Parameters) : Text :=
  match p.variablesFile with
  | some file => if file.isEmpty then [] else " vars: " ++ file
  | none => []

def resolve (library : Library) (inherited : Scope) (d : Directive) : Run (Option Inclusion) := do
  let p := Parameters.parse d.parameters
  match p.name with
  | none =>
    log Log.debug ("Skipping directive without include: " ++ d.text)
    updateReport (·.recordSkip d.text SkipReason.missingInclude.text)
    return none
  | some name =>
    let scope ← localScope library inherited p
    log Log.info ("Include file: " ++ name ++ variablesNote p)
    match library.index.get? name with
    | none =>
      throw (.includeNotFound name "include" ((∅ : Context).insert "directive" (.text d.text)))
    | some path =>
      if ← conditionHolds d p.condition then return some { name, path, scope }
      else
        log Log.debug ("Condition false, skipping " ++ name ++ ": " ++ p.condition.getD [])
        updateReport (·.recordSkip d.text SkipReason.conditionFalse.text)
        return none

def indented (indent content : Text) : Text :=
  (content.splitOn '\n').flatMap fun line => '\n' :: (indent ++ line)

def wrapped (indent name id body : Text) : Text :=
  ['\n'] ++ indent ++ Region.openingMarker name id ++ ['\n'] ++ body ++ ['\n'] ++ indent ++
    Region.closingMarker name id ++ ['\n']

inductive Block
  | skipped
  | nested (body : Text)
  | region (indent name id body : Text)
  deriving DecidableEq, Repr

def Block.text : Block → Text
  | .skipped => []
  | .nested body => body
  | .region indent name id body => wrapped indent name id body

structure Piece where
  before : Text
  directive : Directive
  block : Block
  deriving DecidableEq, Repr

structure Expanded where
  pieces : List Piece
  rest : Text
  deriving DecidableEq, Repr

def Expanded.text (e : Expanded) : Text :=
  e.pieces.flatMap (fun p => p.before ++ p.directive.text ++ p.block.text) ++ e.rest

abbrev Expander := Inclusion → Run Text

def insertContent (env : Environment) (nested : Bool) (d : Directive) (name content : Text) :
    Run Block :=
  let body := indented (d.indent ++ env.settings.nestingIndent) content
  if nested then return .nested body
  else do
    -- The id is drawn when the content is already expanded.
    let id ← drawId env.ids
    updateReport fun r => { r with regionsInserted := r.regionsInserted + 1 }
    return .region d.indent name id body

def expandTarget (env : Environment) (expander : Expander) (nested : Bool) (d : Directive) :
    Option Inclusion → Run Block
  | none => return .skipped
  | some inclusion => do
    let content ← expander inclusion
    insertContent env nested d inclusion.name content

def expandDirective (env : Environment) (expander : Expander) (nested : Bool) (inherited : Scope)
    (d : Directive) : Run Block := do
  let target ← resolve env.library inherited d
  expandTarget env expander nested d target

def expandPiece (env : Environment) (expander : Expander) (nested : Bool) (scope : Scope) :
    Text × Directive → Run Piece
  | (before, directive) => do
    let block ← expandDirective env expander nested scope directive
    return { before, directive, block }

def expandWith (env : Environment) (expander : Expander) (nested : Bool) (scope : Scope)
    (text : Text) : Run Expanded := do
  let outline := Outline.ofText text
  let pieces ← outline.pieces.mapM (expandPiece env expander nested scope)
  return { pieces, rest := outline.rest }

def substituted (env : Environment) (inclusion : Inclusion) : Except Failure Text := do
  let content ← env.library.read inclusion.path
  return Placeholder.applyScope env.settings.transforms content inclusion.scope

def expandFile (env : Environment) (expander : Expander) (inclusion : Inclusion) : Run Text := do
  let text ← ofExcept (substituted env inclusion)
  let expanded ← expandWith env expander true inclusion.scope text
  return expanded.text

/-- The expanded content of a file that is included below the files of `chain`, where so many more
levels are allowed. -/
def content (env : Environment) : Nat → List Text → Expander
  | 0, chain => fun inclusion =>
    throw (.circularInclude (chain ++ [inclusion.name]) env.settings.maxDepth)
  | levels + 1, chain => fun inclusion => do
    updateReport (·.recordInclude inclusion.name (chain.length + 1))
    expandFile env (content env levels (chain ++ [inclusion.name])) inclusion

def expanded (env : Environment) (nested : Bool) (scope : Scope) (text : Text) : Run Expanded :=
  expandWith env (content env env.settings.levels []) nested scope text

def expand (env : Environment) (nested : Bool) (scope : Scope) (text : Text) : Run Text := do
  return (← expanded env nested scope text).text

end Expansion
end Transclusion
