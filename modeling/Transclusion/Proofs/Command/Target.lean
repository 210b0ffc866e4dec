import Transclusion.Proofs.Command.Quiet
import Transclusion.Proofs.FileSystem.Spared
import Transclusion.Proofs.Json.Ascii

/-!
This module contains the commands in two parts: making the result of a document, which reads files only
(`closed_result`), and putting it where it belongs, which fails only where an encoding lacks a character
(`exec_run_of_ok`).
-/

namespace Transclusion
namespace Command

open Transclusion.Action CommandLine

theorem isAscii_separatorLine : Text.IsAscii (Output.line separatorLine) := by
  decide

variable [Surrogates]

def targetPath (host : Host) (fs : FileSystem) (o : DocumentOptions) : Except Failure Path := do
  fs.resolve (← (Path.ofText o.target).expandHome host.homes)

def document (host : Host) (source : Text) (o : DocumentOptions) : Action (Path × Text) := do
  let target ← documentPath host o.target
  info host source ("File: " ++ target.toText)
  return (target, ← inspect (·.readText target))

structure Result where
  target : Path
  text : Text
  report : Report

def cleaned (host : Host) (o : DocumentOptions) : Action Result := do
  let (target, text) ← document host cleanupSource o
  let (text, report) ← Action.cleanup host target.toText text
  info host cleanupSource
    ("Removed " ++ Text.ofNat report.regionsRemoved ++ " generated region(s)")
  return { target, text, report }

def expandedWith (host : Host) (o : ExpandOptions) (root : Path) (config : Document) (target : Path)
    (text : Text) : Action (Text × Report) := do
  let globals ← globalVariables host o.variablesFile
  match ← includesFolder host root config o.includesFolder with
  | none => cleanOnly host target text
  | some folder => expandFrom host config o.recursive globals folder target text

def gathered (host : Host) (o : ExpandOptions) (root : Path) (config : Document)
    : Action (Option (Expansion.Environment × Scope)) := do
  let globals ← globalVariables host o.variablesFile
  match ← includesFolder host root config o.includesFolder with
  | none => return none
  | some folder => do
    info host expandSource ("Includes folder: " ++ folder.toText)
    let recursive ←
      if o.recursive then pure true else ofExcept (Configuration.recursive config)
    let includeHidden ← ofExcept (Configuration.includeHidden config)
    let index ← sources host folder { recursive, includeHidden }
    let settings ← ofExcept (Configuration.expansionSettings config)
    let library := (← get).files.library index
    return some ({ settings, library, ids := host.ids }, globals)

def worked (host : Host) (target : Path) (text : Text)
    : Option (Expansion.Environment × Scope) → Action (Text × Report)
  | none => cleanOnly host target text
  | some (env, globals) => do
    let (result, report) ← carryOut host target.toText (Preprocess.process env globals text)
    info host expandSource report.summary
    return (result, report)

theorem expandedWith_eq (host : Host) (o : ExpandOptions) (root : Path) (config : Document)
    (target : Path) (text : Text)
    : expandedWith host o root config target text
        =
      gathered host o root config >>= worked host target text := by
  unfold expandedWith gathered
  rw [bind_assoc]
  refine bind_congr fun globals => ?_
  rw [bind_assoc]
  refine bind_congr fun folder => ?_
  cases folder with
  | none => exact (pure_bind ..).symm
  | some folder =>
    unfold expandFrom process
    cases o.recursive
    . simp only [Bool.false_eq_true, if_false, bind_assoc, pure_bind]
      rfl
    . simp only [if_true, bind_assoc, pure_bind]
      rfl

def expanded (host : Host) (o : ExpandOptions) : Action Result := do
  let root ← repoRoot o.repoRoot
  let config ← loadConfiguration host root
  let (target, text) ← document host expandSource o.toDocumentOptions
  let (text, report) ← expandedWith host o root config target text
  return { target, text, report }

def result (host : Host) : CommandLine.Command → Action Result
  | .expand o => expanded host o
  | .cleanup o => cleaned host o

def failureCode : CommandLine.Command → Text
  | .expand _ => "expand_error"
  | .cleanup _ => "cleanup_error"

def emitResult (host : Host) (o : DocumentOptions) (r : Result) : Action Unit :=
  emit host o r.target r.text r.report

theorem cleanup_eq (host : Host) (o : DocumentOptions)
    : cleanup host o = cleaned host o >>= emitResult host o := by
  simp only [cleanup, cleaned, document, bind_assoc, pure_bind]
  rfl

theorem expand_eq (host : Host) (o : ExpandOptions)
    : expand host o = expanded host o >>= emitResult host o.toDocumentOptions := by
  simp only [expand, expanded, document, expandedWith, bind_assoc, pure_bind]
  refine bind_congr fun root => bind_congr fun config => bind_congr fun target => bind_congr fun _ =>
    bind_congr fun text => bind_congr fun globals => bind_congr fun folder => ?_
  cases folder <;> rfl

theorem run_eq (host : Host) (c : CommandLine.Command)
    : run host c
        =
      reporting (options c).json (failureCode c) (result host c >>= emitResult host (options c)) := by
  cases c with
  | expand o =>
    rw [run, expand_eq]
    rfl
  | cleanup o =>
    rw [run, cleanup_eq]
    rfl

section Closed

variable {P : (α : Type) → Action α → Prop} (h : Closed P)

include h

theorem closed_document (host : Host) (source : Text) (o : DocumentOptions)
    : P (Path × Text) (document host source o) := by
  apply h.bind (closed_documentPath h host _)
  intro target
  apply h.bind (h.info host _ _)
  intro _
  apply h.bind (h.inspect _)
  intro text
  apply h.pure

theorem closed_gathered (host : Host) (o : ExpandOptions) (root : Path) (config : Document)
    : P (Option (Expansion.Environment × Scope)) (gathered host o root config) := by
  apply h.bind (closed_globalVariables h host _)
  intro globals
  apply h.bind (closed_includesFolder h host root config _)
  intro folder
  cases folder with
  | none => apply h.pure
  | some folder =>
    apply h.bind (h.info host _ _)
    intro _
    apply h.either (h.pure true) (h.ofExcept _)
    intro recursive
    apply h.bind (h.ofExcept _)
    intro includeHidden
    apply h.bind (h.sources host _ _)
    intro index
    apply h.bind (h.ofExcept _)
    intro settings
    apply h.get _ fun _ => rfl
    intro s
    apply h.pure

theorem closed_worked (host : Host) (target : Path) (text : Text)
    (materials : Option (Expansion.Environment × Scope))
    : P (Text × Report) (worked host target text materials) := by
  cases materials with
  | none => apply closed_cleanOnly h
  | some materials =>
    apply h.bind (h.carryOut host _ _)
    intro _
    apply h.bind (h.info host _ _)
    intro _
    apply h.pure

theorem closed_expandedWith (host : Host) (o : ExpandOptions) (root : Path) (config : Document)
    (target : Path) (text : Text)
    : P (Text × Report) (expandedWith host o root config target text) := by
  rw [expandedWith_eq]
  apply h.bind (closed_gathered h host o root config)
  intro materials
  apply closed_worked h

theorem closed_result (host : Host) (c : CommandLine.Command) : P Result (result host c) := by
  cases c with
  | expand o =>
    apply h.bind (closed_repoRoot h _)
    intro root
    apply h.bind (h.loadConfiguration host root)
    intro config
    apply h.bind (closed_document h host _ _)
    intro _
    apply h.bind (closed_expandedWith h host o root config _ _)
    intro _
    apply h.pure
  | cleanup o =>
    apply h.bind (closed_document h host _ o)
    intro _
    apply h.bind (h.carryOut host _ _)
    intro _
    apply h.bind (h.info host _ _)
    intro _
    apply h.pure

end Closed

/-! ## Where the document is -/

theorem exec_documentPath (host : Host) (o : DocumentOptions) (s : Session)
    : (documentPath host o.target).exec s = (targetPath host s.files o, s) := by
  unfold documentPath targetPath
  rw [exec_bind, exec_ofExcept]
  cases (Path.ofText o.target).expandHome host.homes with
  | error e => rfl
  | ok path => exact exec_inspect _ s

theorem isAbsolute_of_targetPath {host : Host} {fs : FileSystem} {o : DocumentOptions} {target : Path}
    (h : targetPath host fs o = .ok target) : target.isAbsolute = true := by
  obtain ⟨path, _, h⟩ := exists_of_bind_eq_ok h
  unfold FileSystem.resolve Path.resolve at h
  split at h
  next => simp at h
  next =>
    rw [Except.ok.injEq] at h
    rw [← h]
    rfl

structure Opens (host : Host) (fs : FileSystem) (o : DocumentOptions) (target : Path) : Prop where
  path : targetPath host fs o = .ok target
  readable : ∃ text, fs.readText target = .ok text

theorem opens_of_document {host : Host} {source : Text} {o : DocumentOptions} {s t : Session}
    (hs : s.LogsToErrors) {opened : Path × Text}
    (h : (document host source o).exec s = (.ok opened, t)) : Opens host s.files o opened.1 := by
  obtain ⟨path, s', hpath, h⟩ := exec_bind_eq_ok h
  rw [exec_documentPath, Prod.mk.injEq] at hpath
  rw [← hpath.2] at h
  obtain ⟨_, s'', hfiles, _, h⟩ := Quiet.exec_bind_eq_ok (closed_quiet.info host _ _) hs h
  obtain ⟨text, _, htext, h⟩ := exec_bind_eq_ok h
  rw [exec_inspect, hfiles, Prod.mk.injEq] at htext
  rw [exec_pure, Prod.mk.injEq, Except.ok.injEq] at h
  rw [← h.1]
  exact ⟨hpath.1, text, htext.1⟩

theorem opens_of_result {host : Host} {c : CommandLine.Command} {s t : Session}
    (hs : s.LogsToErrors) {r : Result} (h : (result host c).exec s = (.ok r, t))
    : Opens host s.files (options c) r.target := by
  cases c with
  | expand o =>
    obtain ⟨root, s₁, hfiles, hs, h⟩ := Quiet.exec_bind_eq_ok (closed_repoRoot closed_quiet _) hs h
    obtain ⟨config, s₂, hfiles', hs, h⟩ :=
      Quiet.exec_bind_eq_ok (closed_quiet.loadConfiguration host root) hs h
    obtain ⟨opened, _, hopened, h⟩ := exec_bind_eq_ok h
    obtain ⟨_, _, _, h⟩ := exec_bind_eq_ok h
    rw [exec_pure, Prod.mk.injEq, Except.ok.injEq] at h
    have hopens := opens_of_document hs hopened
    rw [hfiles', hfiles] at hopens
    rw [← h.1]
    exact hopens
  | cleanup o =>
    obtain ⟨opened, _, hopened, h⟩ := exec_bind_eq_ok h
    obtain ⟨_, _, _, h⟩ := exec_bind_eq_ok h
    obtain ⟨_, _, _, h⟩ := exec_bind_eq_ok h
    rw [exec_pure, Prod.mk.injEq, Except.ok.injEq] at h
    rw [← h.1]
    exact opens_of_document hs hopened

/-! ## Carrying out a command -/

def shown (host : Host) (o : DocumentOptions) (r : Result) : Text :=
  if o.json then
    Output.success { json := true }
      [("file".toList, .text r.target.toText),
        ("overwritten".toList, .bool o.overwrite),
        ("content".toList, if o.overwrite then .null else .text r.text),
        ("report".toList, r.report.toValue host.timestamp)]
      [] "success"
  else if o.overwrite then Output.line ("Overwrote " ++ r.target.toText)
  else Output.line separatorLine ++ Output.line r.text

/-- How putting a result where it belongs ends: its text may have a character that the encoding of the
file or of the printed output does not take. -/
def placing (host : Host) (o : DocumentOptions) (target : Path) (text : Text) : Except Failure Unit :=
  match o.overwrite, o.json with
  | false, false => host.console.check (Output.line text)
  | false, true => .ok ()
  | true, false => do
    Encoding.utf8.check text
    host.console.check (Output.line ("Overwrote " ++ target.toText))
  | true, true => Encoding.utf8.check text

def told (host : Host) (o : DocumentOptions) (r : Result) : Text :=
  match placing host o r.target r.text with
  | .ok _ => shown host o r
  | .error _ => if o.overwrite then [] else Output.line separatorLine

def stored (text : Text) : List UInt8 :=
  match Encoding.utf8.check text with
  | .ok _ => Utf8.encode text
  | .error _ => []

theorem stored_of_check {text : Text} (h : Encoding.utf8.check text = .ok ())
    : stored text = Utf8.encode text := by
  simp [stored, h]

section Emit

variable {host : Host} {o : DocumentOptions} {r : Result} {s : Session}

theorem exec_print (host : Host) (text : Text) (s : Session)
    : (print host text).exec s
        = match host.console.check text with
          | .ok _ => (.ok (), { s with stdout := s.stdout ++ text })
          | .error e => (.error e, s) := by
  unfold print
  rw [exec_bind, exec_ofExcept]
  cases host.console.check text <;> rfl

theorem exec_print_of_isAscii (host : Host) {text : Text} (h : text.IsAscii) (s : Session)
    : (print host text).exec s = (.ok (), { s with stdout := s.stdout ++ text }) := by
  rw [exec_print, Encoding.check_of_isAscii _ h]

theorem exec_writeText {p : Path} {bytes : List UInt8} (hp : p.isAbsolute = true)
    (h : s.files.readBytes p = .ok bytes) (text : Text)
    : ∃ after, FileSystem.Overwritten s.files after p (stored text) ∧
        (writeText p text).exec s = (Encoding.utf8.check text, { s with files := after }) := by
  obtain ⟨emptied, htruncate, hemptied⟩ := FileSystem.truncate_of_readBytes hp h
  have hread := hemptied.readBytes h
  obtain ⟨after, hupdate, hafter⟩ :=
    FileSystem.updateBytes_of_readBytes hread fun _ => Utf8.encode text
  unfold writeText stored
  rw [exec_bind_of_ok (exec_change htruncate), exec_bind, exec_ofExcept]
  cases Encoding.utf8.check text with
  | error e => exact ⟨emptied, hemptied, rfl⟩
  | ok _ => exact ⟨after, hemptied.trans hafter h, exec_change hupdate⟩

def tell (host : Host) (o : DocumentOptions) (r : Result) : Action Unit :=
  if o.json || o.overwrite then print host (shown host o r)
  else do
    print host (Output.line separatorLine)
    print host (Output.line r.text)

theorem emitResult_eq (host : Host) (o : DocumentOptions) (r : Result)
    : emitResult host o r
        =
      if o.overwrite then do
        info host "powerups.cli._utils" ("Overwrites source file " ++ r.target.toText)
        writeText r.target r.text
        tell host o r
      else tell host o r := by
  obtain ⟨target, overwrite, json, root⟩ := o
  cases overwrite <;> cases json <;> rfl

theorem exec_tell (h : o.overwrite = true → Encoding.utf8.check r.text = .ok ())
    : (tell host o r).exec s
        =
      (placing host o r.target r.text, { s with stdout := s.stdout ++ told host o r }) := by
  have hjson (data : List (Text × Value)) :=
    exec_print_of_isAscii host (Output.isAscii_success (o := { json := true }) rfl data [] "success") s
  obtain ⟨target, overwrite, json, root⟩ := o
  unfold tell told placing
  cases overwrite with
  | false =>
    cases json with
    | true => exact hjson _
    | false =>
      simp only [Bool.or_false, Bool.false_eq_true, if_false]
      rw [exec_bind_of_ok (exec_print_of_isAscii host isAscii_separatorLine s), exec_print]
      unfold shown
      cases host.console.check (Output.line r.text) <;> simp
  | true =>
    rw [h rfl]
    cases json with
    | true => exact hjson _
    | false =>
      change Action.exec (print host (Output.line ("Overwrote " ++ r.target.toText))) s = _
      rw [exec_print]
      dsimp only [bind, Except.bind]
      unfold shown
      cases host.console.check (Output.line ("Overwrote " ++ r.target.toText)) <;> simp

theorem told_of_check_eq_error (host : Host) {e : Failure} (hoverwrite : o.overwrite = true)
    (h : Encoding.utf8.check r.text = .error e)
    : placing host o r.target r.text = .error e ∧ told host o r = [] := by
  have hplacing : placing host o r.target r.text = .error e := by
    obtain ⟨target, overwrite, json, root⟩ := o
    cases hoverwrite
    unfold placing
    rw [h]
    cases json <;> rfl
  refine ⟨hplacing, ?_⟩
  rw [told, hplacing]
  exact if_pos hoverwrite

theorem exec_emitResult (host : Host) (o : DocumentOptions) (hs : s.LogsToErrors)
    (hp : r.target.isAbsolute = true) {bytes : List UInt8}
    (hbytes : s.files.readBytes r.target = .ok bytes)
    : ∃ after stderr, FileSystem.Overwritten s.files after r.target (stored r.text) ∧
        (emitResult host o r).exec s
          = (placing host o r.target r.text, { s with
            files := if o.overwrite then after else s.files
            stdout := s.stdout ++ told host o r
            stderr }) := by
  obtain ⟨stderr, hinfo⟩ := exec_log host hs {
    level := Log.info
    source := "powerups.cli._utils"
    message := "Overwrites source file " ++ r.target.toText }
  obtain ⟨after, hafter, hwrite⟩ := exec_writeText (s := { s with stderr }) hp hbytes r.text
  rw [emitResult_eq]
  cases hoverwrite : o.overwrite with
  | false =>
    refine ⟨after, s.stderr, hafter, ?_⟩
    rw [if_neg (by decide), exec_tell (by simp [hoverwrite])]
    rfl
  | true =>
    refine ⟨after, stderr, hafter, ?_⟩
    rw [if_pos rfl, info, exec_bind_of_ok hinfo]
    cases hcheck : Encoding.utf8.check r.text with
    | error e =>
      rw [hcheck] at hwrite
      obtain ⟨hplacing, htold⟩ := told_of_check_eq_error host hoverwrite hcheck
      rw [exec_bind_of_error hwrite, hplacing, htold, List.append_nil]
      rfl
    | ok _ =>
      rw [hcheck] at hwrite
      rw [exec_bind_of_ok hwrite, exec_tell fun _ => hcheck]
      rfl

theorem unencodable_of_placing {target : Path} {text : Text} {e : Failure}
    (h : placing host o target text = .error e) : ∃ message, e = .unencodable message := by
  unfold placing at h
  split at h
  . exact ⟨_, Encoding.eq_of_check_eq_error h⟩
  . cases h
  . cases hwrite : Encoding.utf8.check text with
    | error e' =>
      rw [hwrite] at h
      exact ⟨_, Encoding.eq_of_check_eq_error (hwrite.trans h)⟩
    | ok _ =>
      rw [hwrite] at h
      exact ⟨_, Encoding.eq_of_check_eq_error h⟩
  . exact ⟨_, Encoding.eq_of_check_eq_error h⟩

end Emit
section Reporting

variable {action : Action Unit} {json : Bool} {code : Text} {s t : Session} {e : Failure}

theorem exec_reporting_of_ok (h : action.exec s = (.ok (), t))
    : (reporting json code action).exec s = (.ok 0, t) := by
  unfold reporting
  rw [exec_tryCatch, exec_bind_of_ok h, exec_pure]

theorem exec_reporting_of_handled (h : action.exec s = (.error e, t)) (he : e.isHandled = true)
    : (reporting json code action).exec s
        =
      (.ok 1, { t with stderr := t.stderr ++ Output.failure { json } e [] code }) := by
  unfold reporting
  rw [exec_tryCatch, exec_bind_of_error h]
  dsimp only
  rw [if_pos he]
  rfl

theorem exec_reporting_of_unhandled (h : action.exec s = (.error e, t)) (he : e.isHandled = false)
    : (reporting json code action).exec s = (.error e, t) := by
  unfold reporting
  rw [exec_tryCatch, exec_bind_of_error h]
  dsimp only
  rw [if_neg (by simp [he])]
  rfl

theorem exec_reporting_of_error (h : action.exec s = (.error e, t))
    : ∃ exit stderr, exit ≠ .ok 0 ∧
        (reporting json code action).exec s = (exit, { t with stderr }) := by
  cases he : e.isHandled with
  | true => exact ⟨.ok 1, _, by simp, exec_reporting_of_handled h he⟩
  | false => exact ⟨.error e, t.stderr, by simp, exec_reporting_of_unhandled h he⟩

theorem exec_reporting_of_placing {host : Host} {o : DocumentOptions} {target : Path} {text : Text}
    (h : action.exec s = (placing host o target text, t))
    : (reporting json code action).exec s
        =
      ((placing host o target text).map fun _ => 0, t) := by
  cases hplacing : placing host o target text with
  | ok _ =>
    rw [hplacing] at h
    exact exec_reporting_of_ok h
  | error e =>
    obtain ⟨message, rfl⟩ := unencodable_of_placing hplacing
    rw [hplacing] at h
    exact exec_reporting_of_unhandled h rfl

end Reporting

theorem exec_run_of_error {host : Host} {c : CommandLine.Command} {s t : Session} {e : Failure}
    (h : (result host c).exec s = (.error e, t))
    : ∃ exit stderr, exit ≠ .ok 0 ∧ (run host c).exec s = (exit, { t with stderr }) := by
  rw [run_eq]
  exact exec_reporting_of_error (exec_bind_of_error h)

theorem exec_run_of_ok {host : Host} {c : CommandLine.Command} {s t : Session} (hs : s.LogsToErrors)
    {r : Result} (h : (result host c).exec s = (.ok r, t))
    : ∃ after stderr, FileSystem.Overwritten s.files after r.target (stored r.text) ∧
        (run host c).exec s
          = ((placing host (options c) r.target r.text).map fun _ => 0, { t with
            files := if (options c).overwrite then after else s.files
            stdout := s.stdout ++ told host (options c) r
            stderr }) := by
  obtain ⟨hpath, text, htext⟩ := opens_of_result hs h
  obtain ⟨bytes, hbytes⟩ := FileSystem.readBytes_of_readText htext
  obtain ⟨outcome, hquiet⟩ := closed_result closed_quiet host c
  obtain ⟨stderr, hquiet⟩ := hquiet s hs
  rw [h, Prod.mk.injEq] at hquiet
  have ht : t.files = s.files ∧ t.stdout = s.stdout ∧ t.LogsToErrors := by
    rw [hquiet.2]
    exact ⟨rfl, rfl, hs⟩
  rw [← ht.1] at hbytes
  obtain ⟨after, stderr, hafter, hemit⟩ :=
    exec_emitResult host (options c) ht.2.2 (isAbsolute_of_targetPath hpath) hbytes
  rw [ht.1] at hafter
  refine ⟨after, stderr, hafter, ?_⟩
  rw [run_eq, ← ht.1, ← ht.2.1]
  apply exec_reporting_of_placing
  rw [exec_bind_of_ok h, hemit]

end Command
end Transclusion
