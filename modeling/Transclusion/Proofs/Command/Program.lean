import Transclusion.Proofs.Command.Logging
import Transclusion.Proofs.Command.Target
import Transclusion.Proofs.Expansion.Run
import Transclusion.Proofs.OrderedMap

/-!
This module contains what the program does to the document that it is given (`command_overwrites`):
nothing, unless it is to overwrite it, and then the document gets the text that is printed otherwise. A
text that cannot be encoded leaves the document empty (`command_empties_loneSurrogate`).
-/

namespace Transclusion

def CommandLine.Command.withOutput (overwrite json : Bool) : CommandLine.Command → CommandLine.Command
  | .expand o => .expand { o with overwrite, json }
  | .cleanup o => .cleanup { o with overwrite, json }

namespace Command

open Transclusion.Action CommandLine

section

variable [Surrogates]

inductive Starts (host : Host) : Option (Option Text) → CommandLine.Command → Action Nat → Prop
  | program {level : Option Text} {c : CommandLine.Command} {args : List Text} :
    parseProgram args = .ok { logLevel := level, command := some c } →
      Starts host (some level) c (runProgram host args)
  | alone {name : CommandName} {c : CommandLine.Command} {args : List Text} :
    parseCommand name args = .ok c → Starts host none c (runCommand host name args)

/-! ## The log -/

def rootPath (fs : FileSystem) : Option Text → Except Failure Path
  | some (c :: text) => fs.resolve (Path.ofText (c :: text))
  | _ => .ok fs.workingDirectory

theorem exec_repoRoot (root : Option Text) (s : Session)
    : (repoRoot root).exec s = (rootPath s.files root, s) := by
  cases root with
  | none => rfl
  | some text =>
    cases text with
    | nil => rfl
    | cons c text => exact exec_inspect (fun fs => fs.resolve (Path.ofText (c :: text))) s

def NoLogFile (host : Host) (fs : FileSystem) (o : DocumentOptions) : Prop :=
  ∀ root config, rootPath fs o.repoRoot = .ok root →
    ((Configuration.load fs root host.environment).run.run []).1 = .ok config →
      ∀ path, Configuration.logFile host.homes root config ≠ .ok (some path)

theorem load_of_exec_loadConfiguration {host : Host} {root : Path} {s t : Session} {config : Document}
    (h : (loadConfiguration host root).exec s = (.ok config, t))
    : ((Configuration.load s.files root host.environment).run.run []).1 = .ok config := by
  unfold loadConfiguration at h
  rw [exec_bind_of_ok (exec_get s)] at h
  obtain ⟨_, _, _, h⟩ := exec_bind_eq_ok h
  rw [exec_ofExcept, Prod.mk.injEq] at h
  exact h.1

theorem path_of_logSettings {host : Host} {level level' : Text} {o : DocumentOptions} {s t : Session}
    {path : Option Path} (hlog : NoLogFile host s.files o)
    (h : (logSettings host level o).exec s = (.ok (level', path), t)) : path = none := by
  unfold logSettings at h
  rw [exec_tryCatch] at h
  split at h
  next settings t' hsettings =>
    rw [Prod.mk.injEq, Except.ok.injEq] at h
    rw [h.1] at hsettings
    obtain ⟨root, _, hroot, hsettings⟩ := exec_bind_eq_ok hsettings
    rw [exec_repoRoot, Prod.mk.injEq] at hroot
    rw [← hroot.2] at hsettings
    obtain ⟨config, s', hconfig, hsettings⟩ := exec_bind_eq_ok hsettings
    have hpath := hlog root config hroot.1 (load_of_exec_loadConfiguration hconfig)
    have hrest : ∀ {first : Action Text}, (first >>= fun level => do
        let path ← ofExcept (Configuration.logFile host.homes root config)
        return (level, path) : Action (Text × Option Path)).exec s' = (.ok (level', path), t') →
          path = none := by
      intro first hfirst
      obtain ⟨_, _, _, hfirst⟩ := exec_bind_eq_ok hfirst
      obtain ⟨found, _, hfound, hfirst⟩ := exec_bind_eq_ok hfirst
      rw [exec_ofExcept, Prod.mk.injEq] at hfound
      rw [exec_pure, Prod.mk.injEq, Except.ok.injEq, Prod.mk.injEq] at hfirst
      rw [← hfirst.1.2]
      cases found with
      | none => rfl
      | some file => exact absurd hfound.1 (hpath file)
    split at hsettings
    . exact hrest hsettings
    . exact hrest hsettings
  next e t' _ =>
    split at h
    . rw [exec_pure, Prod.mk.injEq, Except.ok.injEq, Prod.mk.injEq] at h
      exact h.1.2.symm
    . simp [exec_throw] at h

theorem exec_configureLog_none (level : Text) {s : Session} (hs : s.LogsToErrors)
    : ∃ channel, (configureLog level none).exec s = (.ok (), { s with channel }) ∧
        ∀ handler ∈ channel.attached, handler.target = .errors := by
  rw [exec_configureLog]
  unfold configured targetIn
  dsimp only
  split
  . refine ⟨_, rfl, ?_⟩
    intro handler hhandler
    obtain ⟨h, hmem, rfl⟩ := List.mem_map.mp hhandler
    split <;> exact hs h hmem
  . refine ⟨_, rfl, ?_⟩
    intro handler hhandler
    rcases List.mem_append.mp hhandler with hmem | hmem
    . exact hs handler (List.mem_filter.mp hmem).1
    . obtain rfl := List.mem_singleton.mp hmem
      rfl

/-! ## The whole program -/

def prepared (host : Host) (how : Option (Option Text)) (c : CommandLine.Command) : Action Result :=
  match how with
  | some level => do
    let _ ← logSettings host (level.getD []) (options c)
    result host c
  | none => result host c

theorem prepared_withOutput (host : Host) (how : Option (Option Text)) (c : CommandLine.Command)
    (overwrite json : Bool) : prepared host how (c.withOutput overwrite json) = prepared host how c := by
  cases c <;> rfl

structure Untouched (fs : FileSystem) (s : Session) : Prop where
  files : s.files = fs
  stdout : s.stdout = []

theorem exec_of_starts {host : Host} {how : Option (Option Text)} {c : CommandLine.Command}
    {start : Action Nat} (hstart : Starts host how c start) {fs : FileSystem}
    (hlog : NoLogFile host fs (options c)) (drawn : Nat)
    : (∃ e t, start.exec { files := fs, idsDrawn := drawn } = (.error e, t) ∧ Untouched fs t ∧
          ((prepared host how c).exec { files := fs, idsDrawn := drawn }).1 = .error e) ∨
        ∃ s, start.exec { files := fs, idsDrawn := drawn } = (run host c).exec s ∧ Untouched fs s ∧
          s.LogsToErrors ∧
          ((prepared host how c).exec { files := fs, idsDrawn := drawn }).1 = ((result host c).exec s).1 := by
  have hfresh : ({ files := fs, idsDrawn := drawn } : Session).LogsToErrors := by
    simp [Session.LogsToErrors]
  cases hstart with
  | alone hparse =>
    right
    refine ⟨_, ?_, ⟨rfl, rfl⟩, hfresh, rfl⟩
    unfold runCommand
    rw [hparse]
  | @program level _ args hparse =>
    unfold runProgram prepared
    rw [hparse]
    dsimp only
    obtain ⟨outcome, hquiet⟩ := closed_logSettings closed_quiet host (level.getD []) (options c)
    obtain ⟨stderr, hquiet⟩ := hquiet _ hfresh
    cases hsettings : (outcome fs drawn).1 with
    | error e =>
      left
      rw [hsettings] at hquiet
      refine ⟨e, _, exec_bind_of_error hquiet, ⟨rfl, rfl⟩, ?_⟩
      rw [exec_bind_of_error hquiet]
    | ok settings =>
      right
      obtain ⟨level', path⟩ := settings
      rw [hsettings] at hquiet
      obtain rfl := path_of_logSettings hlog hquiet
      obtain ⟨channel, hconfigure, herrors⟩ := exec_configureLog_none level'
        (s := { files := fs, stderr, idsDrawn := (outcome fs drawn).2 }) hfresh
      -- The words of the command line are logged as well, but to the errors only.
      obtain ⟨stderr', hinvocation⟩ := exec_log host
        (s := { files := fs, channel, stderr, idsDrawn := (outcome fs drawn).2 }) herrors _
      rw [exec_bind_of_ok hquiet, exec_bind_of_ok hquiet, exec_bind_of_ok hconfigure,
        exec_bind_of_ok hinvocation]
      refine ⟨_, rfl, ⟨rfl, rfl⟩, herrors, ?_⟩
      exact Quiet.agree (closed_result closed_quiet host c) hfresh herrors rfl rfl

/-! ## The document -/

def PrintsText (target : Path) (text : Text) (json : Bool) (stdout : Text) : Prop :=
  if json then
    ∃ report, stdout = Output.success { json := true }
      [("file".toList, .text target.toText), ("overwritten".toList, .bool false),
        ("content".toList, .text text), ("report".toList, report)] [] "success"
  else stdout = Output.line separatorLine ++ Output.line text

/-- Where the command does not overwrite the document at `target`, it puts out this text: as JSON always,
and otherwise if it can be printed. -/
def Shows (host : Host) (how : Option (Option Text)) (c : CommandLine.Command) (fs : FileSystem)
    (drawn : Nat) (target : Path) (text : Text) : Prop :=
  ∀ json other, Starts host how (c.withOutput false json) other →
    json = true ∨ host.console.check (Output.line text) = .ok () →
      ∃ t, other.exec { files := fs, idsDrawn := drawn } = (.ok 0, t) ∧ t.files = fs ∧
        PrintsText target text json t.stdout

/-- There is a text for the document, but an encoding does not take it, or the path of the document. -/
structure Misplaced (host : Host) (how : Option (Option Text)) (c : CommandLine.Command)
    (fs : FileSystem) (drawn : Nat) (target : Path) (text : Text) (e : Failure) (s : Session)
    : Prop where
  path : targetPath host fs (options c) = .ok target
  refused : placing host (options c) target text = .error e
  overwritten : (options c).overwrite = true →
    FileSystem.Overwritten fs s.files target (stored text) ∧ s.stdout = []
  separated : (options c).overwrite = false →
    s.files = fs ∧ s.stdout = Output.line separatorLine
  shows : Shows host how c fs drawn target text

structure Ended (host : Host) (how : Option (Option Text)) (c : CommandLine.Command) (fs : FileSystem)
    (drawn : Nat) (exit : Except Failure Nat) (s : Session) : Prop where
  failed : exit ≠ .ok 0 → Untouched fs s ∨
    ∃ target text e, exit = .error e ∧ Misplaced host how c fs drawn target text e s
  printed : exit = .ok 0 → (options c).overwrite = false → s.files = fs
  overwritten : exit = .ok 0 → (options c).overwrite = true →
    ∃ target text, targetPath host fs (options c) = .ok target ∧
      FileSystem.Overwritten fs s.files target (Utf8.encode text) ∧
      Shows host how c fs drawn target text

section Start

variable {host : Host} {how : Option (Option Text)} {c : CommandLine.Command} {start : Action Nat}
  (hstart : Starts host how c start) {fs : FileSystem} (hlog : NoLogFile host fs (options c))
  {drawn : Nat}

include hstart hlog

theorem start_of_error {e : Failure}
    (h : ((prepared host how c).exec { files := fs, idsDrawn := drawn }).1 = .error e)
    : ∃ exit t, exit ≠ .ok 0 ∧ start.exec { files := fs, idsDrawn := drawn } = (exit, t) ∧
        Untouched fs t := by
  rcases exec_of_starts hstart hlog drawn with ⟨e', t, hexec, ht, _⟩ | ⟨s, hexec, hs, herrors, hresult⟩
  . exact ⟨.error e', t, by simp, hexec, ht⟩
  . obtain ⟨outcome, hquiet⟩ := closed_result closed_quiet host c
    obtain ⟨stderr, hquiet⟩ := hquiet s herrors
    have houtcome : (outcome s.files s.idsDrawn).1 = .error e := by
      rw [← h, hresult, hquiet]
    rw [houtcome] at hquiet
    obtain ⟨exit, stderr, hexit, hrun⟩ := exec_run_of_error hquiet
    rw [← hexec] at hrun
    exact ⟨exit, _, hexit, hrun, hs.files, hs.stdout⟩

theorem start_of_ok {r : Result}
    (h : ((prepared host how c).exec { files := fs, idsDrawn := drawn }).1 = .ok r)
    : targetPath host fs (options c) = .ok r.target ∧
        ∃ after t, FileSystem.Overwritten fs after r.target (stored r.text) ∧
          start.exec { files := fs, idsDrawn := drawn }
            = ((placing host (options c) r.target r.text).map fun _ => 0, t) ∧
          t.files = (if (options c).overwrite then after else fs) ∧
          t.stdout = told host (options c) r := by
  rcases exec_of_starts hstart hlog drawn with ⟨e, _, _, _, he⟩ | ⟨s, hexec, hs, herrors, hresult⟩
  . rw [h] at he
    simp at he
  . obtain ⟨outcome, hquiet⟩ := closed_result closed_quiet host c
    obtain ⟨stderr, hquiet⟩ := hquiet s herrors
    have houtcome : (outcome s.files s.idsDrawn).1 = .ok r := by
      rw [← h, hresult, hquiet]
    rw [houtcome] at hquiet
    have hopens := opens_of_result herrors hquiet
    obtain ⟨after, stderr, hafter, hrun⟩ := exec_run_of_ok herrors hquiet
    rw [hs.files] at hopens hafter
    rw [← hexec, hs.files, hs.stdout] at hrun
    exact ⟨hopens.path, after, _, hafter, hrun, rfl, rfl⟩

end Start

theorem noLogFile_withOutput {host : Host} {fs : FileSystem} {c : CommandLine.Command}
    (h : NoLogFile host fs (options c)) (overwrite json : Bool)
    : NoLogFile host fs (options (c.withOutput overwrite json)) := by
  cases c <;> exact h

theorem printsText_shown (host : Host) (c : CommandLine.Command) (r : Result) (json : Bool)
    : PrintsText r.target r.text json (shown host (options (c.withOutput false json)) r) := by
  unfold PrintsText
  cases json with
  | true =>
    rw [if_pos rfl]
    cases c <;> exact ⟨_, rfl⟩
  | false => cases c <;> rfl

theorem placing_withOutput {host : Host} (c : CommandLine.Command) {json : Bool} (target : Path)
    {text : Text} (h : json = true ∨ host.console.check (Output.line text) = .ok ())
    : placing host (options (c.withOutput false json)) target text = .ok () := by
  cases json with
  | true => cases c <;> rfl
  | false => cases c <;> exact h.resolve_left (by decide)

theorem check_of_placing {host : Host} {o : DocumentOptions} {target : Path} {text : Text}
    (hoverwrite : o.overwrite = true) (h : placing host o target text = .ok ())
    : Encoding.utf8.check text = .ok () := by
  obtain ⟨target, overwrite, json, root⟩ := o
  cases hoverwrite
  cases json with
  | true => exact h
  | false =>
    obtain ⟨_, hcheck, _⟩ := exists_of_bind_eq_ok h
    exact hcheck

-- Where the result goes makes no difference to what it is.
theorem shows_of_prepared {host : Host} {how : Option (Option Text)} {c : CommandLine.Command}
    {fs : FileSystem} (hlog : NoLogFile host fs (options c)) {drawn : Nat} {r : Result}
    (h : ((prepared host how c).exec { files := fs, idsDrawn := drawn }).1 = .ok r)
    : Shows host how c fs drawn r.target r.text := by
  intro json other hother hprintable
  rw [← prepared_withOutput host how c false json] at h
  obtain ⟨_, _, t, _, hexec, hfiles, hstdout⟩ :=
    start_of_ok hother (noLogFile_withOutput hlog false json) h
  have hplacing := placing_withOutput c r.target hprintable
  rw [hplacing] at hexec
  refine ⟨t, hexec, ?_, ?_⟩
  . rw [hfiles]
    cases c <;> rfl
  . rw [hstdout, told, hplacing]
    exact printsText_shown host c r json

def plainHost : Host where
  homes := ∅
  ids _ := ['I']
  clock := []
  timestamp := []
  console := .utf8

theorem noLogFile_of_toOption {host : Host} {fs : FileSystem} {o : DocumentOptions} {root : Path}
    (hroot : rootPath fs o.repoRoot = .ok root)
    (h : (((Configuration.load fs root host.environment).run.run []).1.toOption.bind fun config =>
        (Configuration.logFile host.homes root config).toOption) = some none)
    : NoLogFile host fs o := by
  intro root' config hroot' hconfig path hpath
  rw [hroot, Except.ok.injEq] at hroot'
  rw [← hroot'] at hconfig hpath
  rw [hconfig] at h
  simp [Except.toOption, hpath] at h

end

attribute [local instance] Surrogates.lastBlock

def documentBytes : List UInt8 :=
  Utf8.encode "a\n<!-- included \"x\" \"I\" -->\nb\n<!-- / included \"x\" \"I\" -->\n"

theorem nodup_entry (bytes : List UInt8) : ([([['d']], Entry.file bytes)].map Prod.fst).Nodup :=
  List.pairwise_singleton _ _

def singleDocument : FileSystem where
  tree := { entries := [([['d']], .file documentBytes)], nodup := nodup_entry documentBytes }

def cleaning : CommandLine.Command :=
  .cleanup { target := ['d'], overwrite := true, json := false, repoRoot := none }

theorem noLogFile_singleDocument : NoLogFile plainHost singleDocument (options cleaning) :=
  noLogFile_of_toOption rfl (by decide +kernel)

theorem nodup_surrogateNames : ([[['d']], [['i']], [['i'], ['f']], [['v']]] : List (List Text)).Nodup := by
  decide

def loneSurrogate : FileSystem where
  tree := {
    entries := [([['d']], .file (Utf8.encode "<!-- include f -->")), ([['i']], .directory),
      ([['i'], ['f']], .file (Utf8.encode "$\x7bx\x7d")),
      ([['v']], .file (Utf8.encode "\x7b\"x\": \"\\ud800\"\x7d"))]
    nodup := nodup_surrogateNames }

def expandingSurrogate (overwrite : Bool) : CommandLine.Command :=
  .expand {
    target := ['d']
    overwrite
    json := false
    repoRoot := none
    includesFolder := some ['i']
    variablesFile := some ['v']
    recursive := false }

def surrogateWords : List Text :=
  ["--includes-folder", "i", "--variables", "v", "d"]

def isUnencodable : Except Failure Nat → Bool
  | .error (.unencodable _) => true
  | _ => false

theorem exists_of_isUnencodable {exit : Except Failure Nat} (h : isUnencodable exit = true)
    : ∃ message, exit = .error (.unencodable message) := by
  unfold isUnencodable at h
  split at h
  next message => exact ⟨message, rfl⟩
  next => cases h

end Command
end Transclusion
