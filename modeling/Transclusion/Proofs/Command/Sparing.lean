import Transclusion.Proofs.Command.Exit
import Transclusion.Proofs.FileSystem.Spared

/-!
This module contains what a command leaves alone until it puts its result anywhere: as long as the log
goes elsewhere, a file stays what it is (`closed_sparing`), also while the log is set up
(`spares_setUp`).
-/

namespace Transclusion

variable [Surrogates]

def Session.LogsElsewhere (place : List Text) (s : Session) : Prop :=
  ∀ handler ∈ s.channel.attached, ∀ path, handler.target = .file path →
    ∀ fs : FileSystem, fs.locate path ≠ .ok place

structure Session.Spares (place : List Text) (s t : Session) : Prop where
  channel : t.channel = s.channel
  files : s.LogsElsewhere place → s.files.Spares place t.files

namespace Session.Spares

variable {place : List Text} {s t u : Session}

theorem of_eq (hchannel : t.channel = s.channel) (hfiles : t.files = s.files) : s.Spares place t where
  channel := hchannel
  files _ := by
    rw [hfiles]
    exact FileSystem.Spares.refl place s.files

theorem logsElsewhere (h : s.Spares place t) (hs : s.LogsElsewhere place) : t.LogsElsewhere place := by
  unfold LogsElsewhere
  rw [h.channel]
  exact hs

theorem trans (h : s.Spares place t) (h' : t.Spares place u) : s.Spares place u where
  channel := h'.channel.trans h.channel
  files hs := (h.files hs).trans (h'.files (h.logsElsewhere hs))

end Session.Spares

namespace Action

variable {α β : Type} {place : List Text}

theorem spares_deliverTo (place : List Text) (clock : Text) (r : Log.Record) (s : Session)
    {route : Log.Route} (hroute : route ∈ s.channel.routes r)
    : s.Spares place (deliverTo clock r s route) := by
  unfold deliverTo
  split
  next => exact Session.Spares.of_eq rfl rfl
  next => exact Session.Spares.of_eq rfl rfl
  next path =>
    obtain ⟨handler, hhandler, htarget⟩ := Log.Channel.exists_handler_of_mem_routes hroute
    split
    next files hfiles =>
      obtain ⟨_, _, hfiles⟩ := exists_of_bind_eq_ok hfiles
      refine ⟨rfl, ?_⟩
      intro hs
      exact FileSystem.spares_updateBytes hfiles (hs handler hhandler path htarget s.files)
    next => exact Session.Spares.of_eq rfl rfl

theorem spares_deliver (place : List Text) (clock : Text) (r : Log.Record) (s : Session)
    : s.Spares place (deliver clock r s) := by
  have hfold : ∀ (routes : List Log.Route) (s : Session), (∀ route ∈ routes, route ∈ s.channel.routes r) →
      s.Spares place (routes.foldl (deliverTo clock r) s) := by
    intro routes
    induction routes with
    | nil => exact fun _ _ => Session.Spares.of_eq rfl rfl
    | cons route routes ih =>
      intro s hroutes
      have hstep := spares_deliverTo place clock r s (hroutes route List.mem_cons_self)
      apply hstep.trans
      apply ih
      -- Writing a record leaves the channel as it is.
      rw [hstep.channel]
      exact fun other hother => hroutes other (List.mem_cons_of_mem _ hother)
  exact hfold _ s fun _ h => h

def Sparing (place : List Text) (a : Action α) : Prop :=
  ∀ s : Session, s.Spares place (a.exec s).2

theorem Sparing.of_exec {a : Action α} (h : Sparing place a) {s t : Session}
    {outcome : Except Failure α} (hexec : a.exec s = (outcome, t)) : s.Spares place t := by
  have := h s
  rw [hexec] at this
  exact this

theorem closed_sparing (place : List Text) : Closed fun _ a => Sparing place a where
  pure _ _ := Session.Spares.of_eq rfl rfl
  ofExcept x s := by
    rw [exec_ofExcept]
    exact Session.Spares.of_eq rfl rfl
  bind {_ _ a f} ha hf s := by
    rw [exec_bind]
    cases h : a.exec s with
    | mk outcome t =>
      have hspares := Sparing.of_exec ha h
      cases outcome with
      | error e => exact hspares
      | ok x => exact hspares.trans (hf x t)
  tryCatch {_ a handle} ha hhandle s := by
    rw [exec_tryCatch]
    cases h : a.exec s with
    | mk outcome t =>
      have hspares := Sparing.of_exec ha h
      cases outcome with
      | error e => exact hspares.trans (hhandle e t)
      | ok x => exact hspares
  get hf _ s := by
    rw [exec_bind_of_ok (exec_get s)]
    exact hf s s
  useIds _ _ := Session.Spares.of_eq rfl rfl
  log host r s := spares_deliver place host.clock r s

end Action

namespace Command

open Transclusion.Action CommandLine

def LogElsewhere (host : Host) (fs : FileSystem) (level : Text) (o : DocumentOptions) (target : Path)
    : Prop :=
  ∀ level' path, logPlan host fs level o = .ok (level', some path) → fs.resolve path ≠ .ok target

section SetUp

variable {host : Host} {fs : FileSystem} {level : Text} {path target : Path} {place : List Text}
  {s t : Session}

theorem spares_opened {files : FileSystem} (h : opened fs (.file path) = (.ok (), files))
    (hplace : ∀ fs : FileSystem, fs.locate path ≠ .ok place) : fs.Spares place files := by
  unfold opened at h
  dsimp only at h
  split at h
  next => simp at h
  next made hmade =>
    split at h
    next => simp at h
    next files' hfiles =>
      obtain ⟨_, _, hfiles⟩ := exists_of_bind_eq_ok hfiles
      obtain rfl := (Prod.mk.inj h).2
      exact ((FileSystem.frame_spares place).ensureDirectory hmade).trans
        (FileSystem.spares_updateBytes hfiles (hplace made))

theorem exec_configureLog_eq_ok (hs : s.channel = {})
    (h : (configureLog level (some path)).exec s = (.ok (), t))
    (hplace : ∀ resolved, s.files.resolve path = .ok resolved →
      ∀ fs : FileSystem, fs.locate resolved ≠ .ok place)
    : t.LogsElsewhere place ∧ s.files.Spares place t.files := by
  rw [exec_configureLog] at h
  unfold configured targetIn at h
  dsimp only at h
  cases hresolve : s.files.resolve path with
  | error e => simp [hresolve, Except.map] at h
  | ok resolved =>
    have hserves : s.channel.serves (.file resolved) = false := by
      rw [hs]
      rfl
    simp only [hresolve, Except.map, hserves, Bool.false_eq_true, if_false] at h
    split at h
    next => simp at h
    next files hopened =>
      obtain rfl := (Prod.mk.inj h).2
      refine ⟨?_, spares_opened hopened (hplace resolved hresolve)⟩
      intro handler hhandler file hfile
      rw [hs] at hhandler
      obtain rfl := List.mem_singleton.mp hhandler
      cases hfile
      exact hplace resolved hresolve

theorem spares_setUp {c : CommandLine.Command} {args : List Text} {drawn : Nat}
    (htarget : targetPath host fs (options c) = .ok target) (hplace : fs.locate target = .ok place)
    (hlog : LogElsewhere host fs level (options c) target)
    (h : (setUp host level c args).exec { files := fs, idsDrawn := drawn } = (.ok (), s))
    : s.LogsElsewhere place ∧ fs.Spares place s.files := by
  obtain ⟨plan, s₁, hplan, h⟩ := exec_bind_eq_ok h
  have hmade := outcome_logSettings host level (options c) { files := fs, idsDrawn := drawn }
  obtain ⟨outcome, hquiet⟩ := closed_logSettings closed_quiet host level (options c)
  obtain ⟨stderr, hquiet⟩ := hquiet { files := fs, idsDrawn := drawn } (by simp [Session.LogsToErrors])
  rw [hplan] at hmade hquiet
  dsimp only at hmade hquiet
  obtain ⟨level', path⟩ := plan
  rw [Prod.mk.injEq] at hquiet
  obtain ⟨_, s₂, hconfigure, h⟩ := exec_bind_eq_ok h
  have hlogged := ((closed_sparing place).log host _).of_exec h
  suffices hopened : s₂.LogsElsewhere place ∧ fs.Spares place s₂.files from
    ⟨hlogged.logsElsewhere hopened.1, hopened.2.trans (hlogged.files hopened.1)⟩
  cases path with
  | none =>
    have hfresh : s₁.LogsToErrors := by simp [Session.LogsToErrors, hquiet.2]
    obtain ⟨channel, hexec, herrors⟩ := exec_configureLog_none level' hfresh
    rw [hexec, Prod.mk.injEq] at hconfigure
    rw [← hconfigure.2, hquiet.2]
    refine ⟨?_, FileSystem.Spares.refl place fs⟩
    intro handler hhandler path hpath
    rw [herrors handler hhandler] at hpath
    cases hpath
  | some path =>
    obtain ⟨raw, _, hraw⟩ := exists_of_bind_eq_ok htarget
    have hfiles : s₁.files = fs := by rw [hquiet.2]
    have hbeside := hlog level' path (usedPlan_eq_some_iff.mp hmade.symm)
    rw [← hfiles]
    apply exec_configureLog_eq_ok (by rw [hquiet.2]) hconfigure
    intro resolved hresolved fs' hlocate
    rw [hfiles] at hresolved
    rw [FileSystem.eq_of_locate hresolved hraw hlocate hplace] at hresolved
    exact hbeside hresolved

end SetUp

end Command
end Transclusion
