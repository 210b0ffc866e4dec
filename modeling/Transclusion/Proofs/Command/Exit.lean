import Transclusion.Proofs.Command.Silent

/-!
This module contains how the program ends on a command: with a code, or with a failure that nothing
reports (`program_ends`). The latter happens where the log cannot be set up, where the command itself
fails in a way that it does not report, or where an encoding does not take its result.
-/

namespace Transclusion

namespace Action

variable {α β : Type}

def Gives (a : Action α) (x : Except Failure α) : Prop :=
  ∀ s, (a.exec s).1 = x

theorem Gives.ofExcept (x : Except Failure α) : Gives (ofExcept x) x := by
  intro s
  rw [exec_ofExcept]

theorem outcome_bind {a : Action α} {f : α → Action β} {g : α → Except Failure β}
    (h : ∀ x, Gives (f x) (g x)) (s : Session) : ((a >>= f).exec s).1 = (a.exec s).1 >>= g := by
  rw [exec_bind]
  cases a.exec s with
  | mk outcome t =>
    cases outcome with
    | error e => rfl
    | ok x => exact h x t

theorem Gives.bind {a : Action α} {x : Except Failure α} {f : α → Action β}
    {g : α → Except Failure β} (ha : Gives a x) (h : ∀ x, Gives (f x) (g x))
    : Gives (a >>= f) (x >>= g) := by
  intro s
  rw [outcome_bind h, ha s]

end Action

namespace Command

open Transclusion.Action CommandLine

/-! ## Setting up the log -/

def usedPlan (level : Text) : Except Failure (Text × Option Path) → Except Failure (Text × Option Path)
  | .error (.settings _) => .ok (if level.isEmpty then "WARNING" else level, none)
  | plan => plan

theorem usedPlan_eq_error_iff {level : Text} {plan : Except Failure (Text × Option Path)} {e : Failure}
    : usedPlan level plan = .error e ↔ plan = .error e ∧ ∀ fault, e ≠ .settings fault := by
  unfold usedPlan
  split
  next fault =>
    simp only [reduceCtorEq, Except.error.injEq, false_iff, not_and]
    intro he hsettings
    exact hsettings fault he.symm
  next hplan =>
    refine ⟨?_, And.left⟩
    intro h
    refine ⟨h, ?_⟩
    intro fault he
    exact hplan fault (he ▸ h)

theorem usedPlan_eq_some_iff {level level' : Text} {plan : Except Failure (Text × Option Path)}
    {path : Path}
    : usedPlan level plan = .ok (level', some path) ↔ plan = .ok (level', some path) := by
  unfold usedPlan
  split
  . simp only [Except.ok.injEq, Prod.mk.injEq, reduceCtorEq, and_false]
  . rfl

section

variable [Surrogates]

def logPlan (host : Host) (fs : FileSystem) (level : Text) (o : DocumentOptions)
    : Except Failure (Text × Option Path) := do
  let root ← rootPath fs o.repoRoot
  let config ← ((Configuration.load fs root host.environment).run.run []).1
  let level ← if level.isEmpty then Configuration.logLevel config else pure level
  let path ← Configuration.logFile host.homes root config
  return (level, path)

def openLog (fs : FileSystem) (path : Path) : Except Failure FileSystem := do
  let path ← fs.resolve path
  let fs ← fs.ensureDirectory path.parent true
  fs.appendText path []

inductive LogFails (host : Host) (fs : FileSystem) (level : Text) (o : DocumentOptions) : Failure → Prop
  | plan {e : Failure} :
    logPlan host fs level o = .error e → (∀ fault, e ≠ .settings fault) → LogFails host fs level o e
  | file {level' : Text} {path : Path} {e : Failure} :
    logPlan host fs level o = .ok (level', some path) → openLog fs path = .error e →
      LogFails host fs level o e

def setUp (host : Host) (level : Text) (c : CommandLine.Command) (args : List Text) : Action Unit := do
  let (level, path) ← logSettings host level (options c)
  configureLog level path
  log host
    { level := Log.debug
      source := "powerups.cli._dispatcher"
      message := "Invocation: " ++ ([' '] : Text).intercalate args }

theorem runProgram_eq {args : List Text} {level : Option Text} {c : CommandLine.Command}
    (h : parseProgram args = .ok { logLevel := level, command := some c }) (host : Host)
    : runProgram host args = setUp host (level.getD []) c args >>= fun _ => run host c := by
  unfold runProgram setUp
  rw [h, bind_assoc]
  apply bind_congr
  intro plan
  exact (bind_assoc ..).symm

theorem outcome_logSettings (host : Host) (level : Text) (o : DocumentOptions) (s : Session)
    : ((logSettings host level o).exec s).1
        =
      usedPlan level (logPlan host s.files level o) := by
  have hrest : ∀ root config, Gives (do
      let level ← if level.isEmpty then ofExcept (Configuration.logLevel config) else pure level
      let path ← ofExcept (Configuration.logFile host.homes root config)
      return (level, path)) (do
      let level ← if level.isEmpty then Configuration.logLevel config else pure level
      let path ← Configuration.logFile host.homes root config
      return (level, path)) := by
    intro root config
    have hpath : ∀ level : Text, Gives (do
        let path ← ofExcept (Configuration.logFile host.homes root config)
        return (level, path)) (do
        let path ← Configuration.logFile host.homes root config
        return (level, path)) := by
      intro level
      exact (Gives.ofExcept _).bind fun _ _ => rfl
    split
    . exact (Gives.ofExcept _).bind hpath
    . exact hpath level
  have hread : ((do
      let root ← repoRoot o.repoRoot
      let config ← loadConfiguration host root
      let level ← if level.isEmpty then ofExcept (Configuration.logLevel config) else pure level
      let path ← ofExcept (Configuration.logFile host.homes root config)
      return (level, path) : Action (Text × Option Path)).exec s).1 = logPlan host s.files level o := by
    unfold logPlan
    rw [exec_bind, exec_repoRoot]
    cases rootPath s.files o.repoRoot with
    | error e => rfl
    | ok root =>
      dsimp only
      rw [outcome_bind (hrest root), exec_loadConfiguration]
      rfl
  unfold logSettings
  rw [exec_tryCatch, ← hread]
  generalize Action.exec _ s = ended
  obtain ⟨outcome, t⟩ := ended
  cases outcome with
  | ok plan => rfl
  | error e => cases e <;> rfl

theorem outcome_opened (fs : FileSystem) (path : Path)
    : (opened fs (.file path)).1
        =
      (fs.ensureDirectory path.parent true >>= (·.appendText path [])).map fun _ => () := by
  unfold opened
  dsimp only
  cases fs.ensureDirectory path.parent true with
  | error e => rfl
  | ok made =>
    change _ = (made.appendText path []).map fun _ => ()
    dsimp only
    cases made.appendText path [] <;> rfl

theorem outcome_configureLog (level : Text) (path : Path) {s : Session} (hs : s.channel = {})
    : ((configureLog level (some path)).exec s).1 = (openLog s.files path).map fun _ => () := by
  rw [exec_configureLog]
  unfold configured openLog targetIn
  dsimp only
  cases s.files.resolve path with
  | error e => rfl
  | ok path =>
    change _ = (s.files.ensureDirectory path.parent true >>= (·.appendText path [])).map _
    rw [← outcome_opened]
    -- There is no handler yet, so that a new one is made.
    have hserves : s.channel.serves (.file path) = false := by
      rw [hs]
      rfl
    simp only [Except.map, hserves, Bool.false_eq_true, if_false]
    cases opened s.files (.file path) with
    | mk outcome files => cases outcome <;> rfl

theorem silent_configureLog (level : Text) (path : Option Path)
    : Silent (fun _ => True) (configureLog level path) := by
  refine ⟨?_, fun _ _ _ => trivial⟩
  intro s
  rw [exec_configureLog]
  unfold configured
  split
  . rfl
  . dsimp only
    split
    . rfl
    . split <;> rfl

theorem error_configureLog_iff (level : Text) (path : Option Path) {s : Session}
    (hs : s.channel = {}) (e : Failure)
    : ((configureLog level path).exec s).1 = .error e ↔
        ∃ file ∈ path, openLog s.files file = .error e := by
  cases path with
  | none =>
    have herrors : s.LogsToErrors := by simp [Session.LogsToErrors, hs]
    obtain ⟨channel, hconfigure, _⟩ := exec_configureLog_none level herrors
    simp [hconfigure]
  | some file =>
    rw [outcome_configureLog level file hs]
    cases hopen : openLog s.files file <;> simp [Except.map, hopen]

section SetUp

variable {host : Host} {level : Text} {o : DocumentOptions} {fs : FileSystem}

theorem logFails_iff {e : Failure}
    : LogFails host fs level o e ↔
        usedPlan level (logPlan host fs level o) = .error e ∨
          ∃ level' path, usedPlan level (logPlan host fs level o) = .ok (level', some path) ∧
            openLog fs path = .error e := by
  constructor
  . intro h
    cases h with
    | plan hplan hfault => exact .inl (usedPlan_eq_error_iff.mpr ⟨hplan, hfault⟩)
    | file hplan hopen => exact .inr ⟨_, _, usedPlan_eq_some_iff.mpr hplan, hopen⟩
  . rintro (h | ⟨level', path, hplan, hopen⟩)
    . obtain ⟨hplan, hfault⟩ := usedPlan_eq_error_iff.mp h
      exact .plan hplan hfault
    . exact .file (usedPlan_eq_some_iff.mp hplan) hopen

theorem exec_setUp (host : Host) (level : Text) (c : CommandLine.Command) (args : List Text)
    (fs : FileSystem) (drawn : Nat)
    : ((setUp host level c args).exec { files := fs, idsDrawn := drawn }).2.stdout = [] ∧
        ∀ e, ((setUp host level c args).exec { files := fs, idsDrawn := drawn }).1 = .error e ↔
          LogFails host fs level (options c) e := by
  have hplan := outcome_logSettings host level (options c) { files := fs, idsDrawn := drawn }
  obtain ⟨outcome, hquiet⟩ := closed_logSettings closed_quiet host level (options c)
  obtain ⟨stderr, hquiet⟩ := hquiet { files := fs, idsDrawn := drawn } (by simp [Session.LogsToErrors])
  rw [hquiet] at hplan
  dsimp only at hplan hquiet
  unfold setUp
  rw [exec_bind, hquiet]
  simp only [logFails_iff]
  cases hmade : (outcome fs drawn).1 with
  | error e =>
    rw [hmade] at hplan
    refine ⟨rfl, ?_⟩
    intro e'
    rw [← hplan]
    simp only [Except.error.injEq, reduceCtorEq, false_and, exists_false, or_false]
  | ok plan =>
    obtain ⟨level', path⟩ := plan
    rw [hmade] at hplan
    have hsilent := (silent_configureLog level' path).bind fun _ _ _ => Silent.log host {
      level := Log.debug
      source := "powerups.cli._dispatcher"
      message := "Invocation: " ++ ([' '] : Text).intercalate args }
    refine ⟨hsilent.stdout _, ?_⟩
    intro e
    have hconfigure := error_configureLog_iff level' path
      (s := { files := fs, stderr, idsDrawn := (outcome fs drawn).2 }) rfl e
    dsimp only at hconfigure ⊢
    rw [outcome_bind (g := fun _ => .ok ()) fun _ _ => rfl, ← hplan]
    cases houtcome : ((configureLog level' path).exec
        { files := fs, stderr, idsDrawn := (outcome fs drawn).2 }).1 with
    | error e' =>
      rw [houtcome] at hconfigure
      simpa [bind, Except.bind] using hconfigure
    | ok _ =>
      rw [houtcome] at hconfigure
      simpa [bind, Except.bind] using hconfigure

end SetUp

/-! ## The whole program -/

def body (host : Host) (c : CommandLine.Command) : Action Unit :=
  result host c >>= emitResult host (options c)

theorem run_eq_reporting (host : Host) (c : CommandLine.Command)
    : run host c = reporting (options c).json (failureCode c) (body host c) :=
  run_eq host c

theorem exec_body_of_error {host : Host} {c : CommandLine.Command} {s t : Session} {e : Failure}
    (h : (body host c).exec s = (.error e, t))
    : (t.stdout = s.stdout ∧ (e.isHandled = false → Unforeseen host c e)) ∨
        ∃ r u, (result host c).exec s = (.ok r, u) ∧
          placing host (options c) r.target r.text = .error e ∧
          t.stdout = s.stdout ++ told host (options c) r := by
  have hsilent := silent_result host c
  unfold body at h
  cases hresult : (result host c).exec s with
  | mk outcome u =>
    have hstdout := hsilent.stdout s
    have hfails := hsilent.failsBy s
    rw [hresult] at hstdout hfails
    cases outcome with
    | error e' =>
      rw [exec_bind_of_error hresult, Prod.mk.injEq, Except.error.injEq] at h
      obtain ⟨rfl, rfl⟩ := h
      refine .inl ⟨hstdout, ?_⟩
      intro he
      exact (hfails _ rfl).resolve_left (by simp [he])
    | ok r =>
      rw [exec_bind_of_ok hresult] at h
      rcases exec_emitResult_of_error (isImpossible_of_result hresult) h with
        ⟨hfiles, hprinted⟩ | ⟨hplacing, hprinted⟩
      . refine .inl ⟨hprinted.trans hstdout, ?_⟩
        intro he
        simp [hfiles.isHandled] at he
      . rw [hstdout] at hprinted
        exact .inr ⟨r, u, rfl, hplacing, hprinted⟩

section Ends

variable (host : Host) (level : Text) (c : CommandLine.Command) (args : List Text) (fs : FileSystem)
  (drawn : Nat)

def Escapes (e : Failure) : Prop :=
  LogFails host fs level (options c) e ∨
    ∃ s, (setUp host level c args).exec { files := fs, idsDrawn := drawn } = (.ok (), s) ∧
      ((body host c).exec s).1 = .error e ∧ e.isHandled = false

/-- With the log set up the command has a result, but an encoding does not take it, or the path of its
document. -/
inductive Unplaced (e : Failure) : Prop
  | intro {s u : Session} {r : Result} :
    (setUp host level c args).exec { files := fs, idsDrawn := drawn } = (.ok (), s) →
      (result host c).exec s = (.ok r, u) → placing host (options c) r.target r.text = .error e →
        Unplaced e

structure Ends (exit : Except Failure Nat) (t : Session) : Prop where
  code : ∀ code, exit = .ok code → code = 0 ∨ code = 1
  printed : exit ≠ .ok 0 → t.stdout = [] ∨
    ∃ e, exit = .error e ∧ Unplaced host level c args fs drawn e ∧ (options c).overwrite = false ∧
      t.stdout = Output.line separatorLine
  reported : exit = .ok 1 → ∃ s u e,
    (setUp host level c args).exec { files := fs, idsDrawn := drawn } = (.ok (), s) ∧
      (body host c).exec s = (.error e, u) ∧ e.isHandled = true ∧
      t.stderr = u.stderr ++ Output.failure { json := (options c).json } e [] (failureCode c)
  escapes : ∀ e, exit = .error e ↔ Escapes host level c args fs drawn e
  cause : ∀ e, exit = .error e → LogFails host fs level (options c) e ∨ Unforeseen host c e ∨
    Unplaced host level c args fs drawn e

variable {host level c args fs drawn}

theorem escapes_iff_of_setUp_error {e : Failure} {s : Session}
    (h : (setUp host level c args).exec { files := fs, idsDrawn := drawn } = (.error e, s)) (e' : Failure)
    : Escapes host level c args fs drawn e' ↔ e = e' := by
  have hfails := (exec_setUp host level c args fs drawn).2 e'
  rw [h, Except.error.injEq] at hfails
  simp [Escapes, h, hfails]

theorem escapes_iff_of_setUp_ok {s : Session}
    (h : (setUp host level c args).exec { files := fs, idsDrawn := drawn } = (.ok (), s)) (e : Failure)
    : Escapes host level c args fs drawn e ↔
        ((body host c).exec s).1 = .error e ∧ e.isHandled = false := by
  have hfails := (exec_setUp host level c args fs drawn).2 e
  rw [h] at hfails
  have hlog : ¬ LogFails host fs level (options c) e := by
    intro he
    simpa using hfails.mpr he
  simp [Escapes, h, hlog]

theorem told_of_placing_eq_error {host : Host} {o : DocumentOptions} {r : Result} {e : Failure}
    (h : placing host o r.target r.text = .error e)
    : told host o r = [] ∨ o.overwrite = false ∧ told host o r = Output.line separatorLine := by
  rw [told, h]
  cases hoverwrite : o.overwrite with
  | true => exact .inl rfl
  | false => exact .inr ⟨rfl, rfl⟩

theorem ends_of_setUp_error {e : Failure} {s : Session}
    (h : (setUp host level c args).exec { files := fs, idsDrawn := drawn } = (.error e, s))
    : Ends host level c args fs drawn (.error e) s := by
  obtain ⟨hprinted, hfails⟩ := exec_setUp host level c args fs drawn
  rw [h] at hprinted hfails
  exact {
    code := by simp
    printed := fun _ => .inl hprinted
    reported := by simp
    escapes := fun e' => by simp [escapes_iff_of_setUp_error h]
    cause := fun e' he' => .inl ((hfails e').mp (congrArg _ (Except.error.inj he'))) }

section Body

variable {s u : Session}
  (hsetUp : (setUp host level c args).exec { files := fs, idsDrawn := drawn } = (.ok (), s))

include hsetUp

theorem stdout_of_setUp_ok : s.stdout = [] := by
  have hprinted := (exec_setUp host level c args fs drawn).1
  rwa [hsetUp] at hprinted

theorem ends_of_body_ok (hbody : (body host c).exec s = (.ok (), u))
    : Ends host level c args fs drawn (.ok 0) u where
  code := by simp
  printed := by simp
  reported := by simp
  escapes e := by simp [escapes_iff_of_setUp_ok hsetUp, hbody]
  cause := by simp

theorem ends_of_handled {e : Failure} (hbody : (body host c).exec s = (.error e, u))
    (he : e.isHandled = true)
    : Ends host level c args fs drawn (.ok 1) { u with
        stderr := u.stderr ++ Output.failure { json := (options c).json } e [] (failureCode c) } where
  code := by simp
  printed _ := by
    rcases exec_body_of_error hbody with ⟨hstdout, _⟩ | ⟨r, _, _, hplacing, _⟩
    . exact .inl (hstdout.trans (stdout_of_setUp_ok hsetUp))
    . -- What an encoding refuses is never handled.
      obtain ⟨message, rfl⟩ := unencodable_of_placing hplacing
      cases he
  reported _ := ⟨s, u, e, hsetUp, hbody, he, rfl⟩
  escapes e' := by
    simp only [escapes_iff_of_setUp_ok hsetUp, hbody, reduceCtorEq, Except.error.injEq, false_iff,
      not_and]
    rintro rfl
    simp [he]
  cause := by simp

theorem ends_of_unhandled {e : Failure} (hbody : (body host c).exec s = (.error e, u))
    (he : e.isHandled = false) : Ends host level c args fs drawn (.error e) u where
  code := by simp
  printed _ := by
    rcases exec_body_of_error hbody with ⟨hstdout, _⟩ | ⟨r, _, hresult, hplacing, hstdout⟩
    . exact .inl (hstdout.trans (stdout_of_setUp_ok hsetUp))
    . rw [stdout_of_setUp_ok hsetUp] at hstdout
      rcases told_of_placing_eq_error hplacing with htold | ⟨hoverwrite, htold⟩
      . exact .inl (hstdout.trans htold)
      . exact .inr ⟨e, rfl, .intro hsetUp hresult hplacing, hoverwrite, hstdout.trans htold⟩
  reported := by simp
  escapes e' := by
    simp only [escapes_iff_of_setUp_ok hsetUp, hbody, Except.error.injEq, iff_self_and]
    rintro rfl
    exact he
  cause e' he' := by
    obtain rfl := Except.error.inj he'
    rcases exec_body_of_error hbody with ⟨_, hunforeseen⟩ | ⟨r, _, hresult, hplacing, _⟩
    . exact .inr (.inl (hunforeseen he))
    . exact .inr (.inr (.intro hsetUp hresult hplacing))

end Body
end Ends

end

attribute [local instance] Surrogates.lastBlock

def cleaningOf (target : Text) : CommandLine.Command :=
  .cleanup { target, overwrite := false, json := false, repoRoot := none }

def settingsBytes : List UInt8 :=
  Utf8.encode "logging: 3\n"

theorem nodup_entries
    : ([([['d']], Entry.file documentBytes), ([Configuration.projectFileName], .file settingsBytes)].map
        Prod.fst).Nodup := by
  decide

def numberForSection : FileSystem where
  tree :=
    { entries := [([['d']], .file documentBytes), ([Configuration.projectFileName], .file settingsBytes)]
      nodup := nodup_entries }

def isNoMapping : Except Failure Nat → Bool
  | .error .noMapping => true
  | _ => false

theorem eq_of_isNoMapping {exit : Except Failure Nat} (h : isNoMapping exit = true)
    : exit = .error .noMapping := by
  unfold isNoMapping at h
  split at h
  . rfl
  . cases h

end Command
end Transclusion
