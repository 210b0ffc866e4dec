import Transclusion.Proofs.Command.Program
import Transclusion.Proofs.Expansion.Failing

/-!
This module contains how the making of a command's result fails: for reasons that commands report, or
because of the configuration or of a path that no file can have (`silent_result`). Putting the result in
its place can fail because of an encoding as well (`exec_emitResult_of_error`).
-/

namespace Transclusion
namespace Action

variable {α β : Type} {P : Failure → Prop}

theorem exec_loadConfiguration [Surrogates] (host : Host) (root : Path) (s : Session)
    : ((loadConfiguration host root).exec s).1
        =
      ((Configuration.load s.files root host.environment).run.run []).1 := by
  unfold loadConfiguration
  rw [exec_bind_of_ok (exec_get s)]
  cases (Configuration.load s.files root host.environment).run.run [] with
  | mk result records =>
    obtain ⟨t, ht⟩ := exec_forM_log host records s
    dsimp only
    rw [exec_bind_of_ok ht, exec_ofExcept]

structure Silent (P : Failure → Prop) (a : Action α) : Prop where
  stdout : ∀ s, (a.exec s).2.stdout = s.stdout
  failsBy : ∀ s, FailsBy P (a.exec s).1

namespace Silent

theorem pure (x : α) : Silent P (Pure.pure x) :=
  ⟨fun _ => rfl, fun _ => .ok x⟩

theorem update {f : Session → Session} (h : ∀ s, (f s).stdout = s.stdout)
    : Silent P (modify f : Action Unit) :=
  ⟨h, fun _ => .ok ()⟩

theorem useIds (n : Nat) : Silent P (modify fun s : Session => { s with idsDrawn := n }) :=
  update fun _ => rfl

theorem ofExcept {x : Except Failure α} (h : FailsBy P x) : Silent P (ofExcept x) := by
  constructor
  all_goals
    intro s
    rw [exec_ofExcept]
  exact h

theorem inspect {f : FileSystem → Except Failure α} (h : ∀ fs, FailsBy P (f fs))
    : Silent P (inspect f) := by
  constructor
  all_goals
    intro s
    rw [exec_inspect]
  exact h s.files

theorem bind {a : Action α} {f : α → Action β} (ha : Silent P a)
    (hf : ∀ x s, (a.exec s).1 = .ok x → Silent P (f x)) : Silent P (a >>= f) := by
  constructor
  all_goals
    intro s
    have hstdout := ha.stdout s
    have hfails := ha.failsBy s
    have hf := fun x => hf x s
    rw [exec_bind]
    cases h : a.exec s with
    | mk outcome t =>
      rw [h] at hstdout hfails hf
      cases outcome with
      | error e => first | exact hstdout | exact .error (hfails e rfl)
      | ok x => first | exact ((hf x rfl).stdout t).trans hstdout | exact (hf x rfl).failsBy t

theorem get {f : Session → Action α} (hf : ∀ s, Silent P (f s))
    : Silent P (MonadState.get >>= f) := by
  constructor
  all_goals
    intro s
    rw [exec_bind_of_ok (exec_get s)]
  . exact (hf s).stdout s
  . exact (hf s).failsBy s

theorem change {f : FileSystem → Except Failure FileSystem} (h : ∀ fs, FailsBy P (f fs))
    : Silent P (change f) :=
  (inspect h).bind fun _ _ _ => update fun _ => rfl

variable [Surrogates]

theorem stdout_deliverTo (clock : Text) (r : Log.Record) (s : Session) (route : Log.Route)
    : (deliverTo clock r s route).stdout = s.stdout := by
  unfold deliverTo
  split
  . rfl
  . rfl
  . split <;> rfl

theorem log (host : Host) (r : Log.Record) : Silent P (log host r) := by
  apply update
  intro s
  unfold deliver
  generalize s.channel.routes r = routes
  induction routes generalizing s with
  | nil => rfl
  | cons route routes ih => exact (ih _).trans (stdout_deliverTo host.clock r s route)

theorem info (host : Host) (source message : Text) : Silent P (info host source message) :=
  log host _

theorem forM_log (host : Host) (records : List Log.Record)
    : Silent P (records.forM (Action.log host)) := by
  induction records with
  | nil => exact pure ()
  | cons r records ih => exact (log host r).bind fun _ _ _ => ih

theorem loadConfiguration (host : Host) (root : Path)
    (h : ∀ fs, FailsBy P ((Configuration.load fs root host.environment).run.run []).1)
    : Silent P (loadConfiguration host root) := by
  apply get
  intro s
  exact (forM_log host _).bind fun _ _ _ => ofExcept (h s.files)

theorem carryOut (host : Host) (document : Text) {step : Expansion.Run α} (h : step.FailsBy P)
    : Silent P (carryOut host document step) := by
  apply get
  intro s
  apply bind (useIds _)
  intro _ _ _
  apply bind (forM_log host _)
  intro _ _ _
  apply bind (ofExcept (h _))
  intro _ _ _
  exact pure _

end Silent
end Action

namespace Command

open Transclusion.Action CommandLine

variable [Surrogates]

/-! ## The failures that are not reported -/

inductive Lost (host : Host) (text : Text) : Failure → Prop
  | home {e : Failure} : (Path.ofText text).expandHome host.homes = .error e → Lost host text e
  | impossible {path : Path} :
    (Path.ofText text).expandHome host.homes = .ok path → path.isImpossible = true →
      Lost host text (Path.impossibility path.toText)

inductive Misread (homes : Homes) (root : Path) (config : Document) : Failure → Prop
  | folder {e : Failure} : Configuration.folder homes root config = .error e → Misread homes root config e
  | recursive {e : Failure} : Configuration.recursive config = .error e → Misread homes root config e
  | includeHidden {e : Failure} :
    Configuration.includeHidden config = .error e → Misread homes root config e
  | settings {e : Failure} :
    Configuration.expansionSettings config = .error e → Misread homes root config e

inductive Unforeseen (host : Host) : CommandLine.Command → Failure → Prop
  | target {c : CommandLine.Command} {e : Failure} : Lost host (options c).target e → Unforeseen host c e
  | folder {o : ExpandOptions} {text : Text} {e : Failure} :
    text ∈ o.includesFolder → Lost host text e → Unforeseen host (.expand o) e
  | variablesFile {o : ExpandOptions} {text : Text} {e : Failure} :
    text ∈ o.variablesFile → Lost host text e → Unforeseen host (.expand o) e
  | root {o : ExpandOptions} {fs : FileSystem} {e : Failure} :
    rootPath fs o.repoRoot = .error e → Unforeseen host (.expand o) e
  | configuration {o : ExpandOptions} {fs : FileSystem} {root : Path} {e : Failure} :
    ((Configuration.load fs root host.environment).run.run []).1 = .error e →
      Unforeseen host (.expand o) e
  | misread {o : ExpandOptions} {fs : FileSystem} {root : Path} {config : Document} {e : Failure} :
    ((Configuration.load fs root host.environment).run.run []).1 = .ok config →
      Misread host.homes root config e → Unforeseen host (.expand o) e

def Foreseen (host : Host) (c : CommandLine.Command) (e : Failure) : Prop :=
  e.isHandled = true ∨ Unforeseen host c e

theorem handled_of_files {host : Host} {c : CommandLine.Command} {α : Type} {x : Except Failure α}
    (h : FailsBy Failure.OfFiles x) : FailsBy (Foreseen host c) x :=
  fun e he => .inl (h e he).isHandled

/-! ## The commands -/

section Document

variable {host : Host} {c : CommandLine.Command}

theorem silent_documentPath : Silent (Foreseen host c) (documentPath host (options c).target) := by
  apply Silent.bind
  . apply Silent.ofExcept
    exact fun e he => .inr (.target (.home he))
  . intro path s hpath
    rw [exec_ofExcept] at hpath
    apply Silent.inspect
    intro fs e he
    unfold FileSystem.resolve Path.resolve at he
    split at he
    next himpossible =>
      cases he
      exact .inr (.target (.impossible hpath himpossible))
    next => simp at he

theorem silent_document (source : Text)
    : Silent (Foreseen host c) (document host source (options c)) := by
  apply silent_documentPath.bind
  intro target _ _
  apply (Silent.info host _ _).bind
  intro _ _ _
  apply (Silent.inspect fun fs => handled_of_files (fs.failsBy_readText target)).bind
  intro text _ _
  exact Silent.pure _

theorem silent_cleanup (name text : Text)
    : Silent (Foreseen host c) (Action.cleanup host name text) := by
  apply Silent.carryOut
  intro p
  exact .ok _

end Document

section Expand

variable {host : Host} {o : ExpandOptions}

theorem silent_globalVariables
    : Silent (Foreseen host (.expand o)) (globalVariables host o.variablesFile) := by
  unfold globalVariables
  split
  next c text hfile =>
    apply Silent.bind
    . apply Silent.ofExcept
      exact fun e he => .inr (.variablesFile hfile (.home he))
    . intro path _ _
      apply (Silent.info host _ _).bind
      intro _ _ _
      exact Silent.inspect fun fs => handled_of_files (fs.failsBy_readVariables path)
  next => exact Silent.pure _

theorem silent_includesFolder {root : Path} {config : Document}
    (hmisread : ∀ e, Misread host.homes root config e → Foreseen host (.expand o) e)
    : Silent (Foreseen host (.expand o)) (includesFolder host root config o.includesFolder) := by
  unfold includesFolder
  split
  next c text hfolder =>
    apply Silent.bind
    . apply Silent.ofExcept
      exact fun e he => .inr (.folder hfolder (.home he))
    . intro _ _ _
      exact Silent.pure _
  next => exact Silent.ofExcept fun e he => hmisread e (.folder he)

theorem silent_process (settings : Expansion.Settings) (index : SourceIndex) (globals : Scope)
    (name text : Text)
    : Silent (Foreseen host (.expand o)) (process host settings index globals name text) := by
  apply Silent.get
  intro s
  apply Silent.carryOut
  intro p e he
  left
  cases Expansion.failsBy_process globals text p e he with
  | notFound name role context => rfl
  | circular chain => rfl
  | file hread => exact (s.files.failsBy_readText _ e hread).isHandled
  | variablesFile hread => exact (s.files.failsBy_readVariables _ e hread).isHandled

theorem silent_expandFrom {root : Path} {config : Document}
    (hmisread : ∀ e, Misread host.homes root config e → Foreseen host (.expand o) e) (recursive : Bool)
    (globals : Scope) (folder target : Path) (text : Text)
    : Silent (Foreseen host (.expand o))
        (expandFrom host config recursive globals folder target text) := by
  have hrest : ∀ recursive, Silent (Foreseen host (.expand o)) do
      let includeHidden ← ofExcept (Configuration.includeHidden config)
      let index ← sources host folder { recursive, includeHidden }
      let settings ← ofExcept (Configuration.expansionSettings config)
      let processed ← process host settings index globals target.toText text
      info host expandSource processed.2.summary
      return processed := by
    intro recursive
    apply (Silent.ofExcept fun e he => hmisread e (.includeHidden he)).bind
    intro includeHidden _ _
    apply Silent.bind
    . apply (Silent.inspect fun fs => handled_of_files (fs.failsBy_sources folder _)).bind
      intro index _ _
      apply (Silent.log host _).bind
      intro _ _ _
      exact Silent.pure _
    . intro index _ _
      apply (Silent.ofExcept fun e he => hmisread e (.settings he)).bind
      intro settings _ _
      apply (silent_process settings index globals _ text).bind
      intro _ _ _
      apply (Silent.info host _ _).bind
      intro _ _ _
      exact Silent.pure _
  apply (Silent.info host _ _).bind
  intro _ _ _
  split
  . exact (Silent.pure true).bind fun recursive _ _ => hrest recursive
  . exact (Silent.ofExcept fun e he => hmisread e (.recursive he)).bind fun recursive _ _ =>
      hrest recursive

theorem silent_expandedWith {root : Path} {config : Document}
    (hmisread : ∀ e, Misread host.homes root config e → Foreseen host (.expand o) e) (target : Path)
    (text : Text)
    : Silent (Foreseen host (.expand o)) (expandedWith host o root config target text) := by
  apply silent_globalVariables.bind
  intro globals _ _
  apply (silent_includesFolder hmisread).bind
  intro folder _ _
  cases folder with
  | none =>
    apply (Silent.log host _).bind
    intro _ _ _
    apply (silent_cleanup _ text).bind
    intro _ _ _
    exact Silent.pure _
  | some folder => exact silent_expandFrom hmisread o.recursive globals folder target text

end Expand

theorem silent_result (host : Host) (c : CommandLine.Command)
    : Silent (Foreseen host c) (result host c) := by
  cases c with
  | expand o =>
    apply Silent.bind
    . constructor
      all_goals
        intro s
        rw [exec_repoRoot]
      exact fun e he => .inr (.root he)
    . intro root _ _
      apply (Silent.loadConfiguration host root fun fs e he => .inr (.configuration he)).bind
      intro config s hconfig
      rw [exec_loadConfiguration] at hconfig
      apply (silent_document (c := .expand o) expandSource).bind
      intro opened _ _
      apply (silent_expandedWith (fun e he => .inr (.misread hconfig he)) opened.1 opened.2).bind
      intro _ _ _
      exact Silent.pure _
  | cleanup o =>
    apply (silent_document (c := .cleanup o) cleanupSource).bind
    intro opened _ _
    apply (silent_cleanup _ opened.2).bind
    intro _ _ _
    apply (Silent.info host _ _).bind
    intro _ _ _
    exact Silent.pure _

/-! ## Putting the result in its place -/

theorem isImpossible_of_document {host : Host} {source : Text} {o : DocumentOptions} {s t : Session}
    {opened : Path × Text} (h : (document host source o).exec s = (.ok opened, t))
    : opened.1.isImpossible = false := by
  obtain ⟨path, _, _, h⟩ := exec_bind_eq_ok h
  obtain ⟨_, s', _, h⟩ := exec_bind_eq_ok h
  obtain ⟨text, _, htext, h⟩ := exec_bind_eq_ok h
  rw [exec_inspect, Prod.mk.injEq] at htext
  rw [exec_pure, Prod.mk.injEq, Except.ok.injEq] at h
  rw [← h.1]
  exact FileSystem.isImpossible_of_readText htext.1

theorem isImpossible_of_result {host : Host} {c : CommandLine.Command} {s t : Session} {r : Result}
    (h : (result host c).exec s = (.ok r, t)) : r.target.isImpossible = false := by
  cases c with
  | expand o =>
    obtain ⟨root, _, _, h⟩ := exec_bind_eq_ok h
    obtain ⟨config, _, _, h⟩ := exec_bind_eq_ok h
    obtain ⟨opened, _, hopened, h⟩ := exec_bind_eq_ok h
    obtain ⟨_, _, _, h⟩ := exec_bind_eq_ok h
    rw [exec_pure, Prod.mk.injEq, Except.ok.injEq] at h
    rw [← h.1]
    exact isImpossible_of_document hopened
  | cleanup o =>
    obtain ⟨opened, _, hopened, h⟩ := exec_bind_eq_ok h
    obtain ⟨_, _, _, h⟩ := exec_bind_eq_ok h
    obtain ⟨_, _, _, h⟩ := exec_bind_eq_ok h
    rw [exec_pure, Prod.mk.injEq, Except.ok.injEq] at h
    rw [← h.1]
    exact isImpossible_of_document hopened

theorem silent_writeText {p : Path} (h : p.isImpossible = false) (text : Text)
    : Silent (fun e => e.OfFiles ∨ Encoding.utf8.check text = .error e) (writeText p text) := by
  apply (Silent.change fun fs e he => .inl (fs.failsBy_truncate h e he)).bind
  intro _ _ _
  apply (Silent.ofExcept fun e he => .inr he).bind
  intro _ _ _
  exact Silent.change fun fs e he => .inl (fs.failsBy_updateBytes h _ e he)

theorem check_of_exec_writeText {p : Path} {text : Text} {s t : Session}
    (h : (writeText p text).exec s = (.ok (), t)) : Encoding.utf8.check text = .ok () := by
  obtain ⟨_, _, _, h⟩ := exec_bind_eq_ok h
  obtain ⟨_, _, hcheck, _⟩ := exec_bind_eq_ok h
  rw [exec_ofExcept, Prod.mk.injEq] at hcheck
  exact hcheck.1

section Emit

variable {host : Host} {o : DocumentOptions} {r : Result} {s t : Session} {e : Failure}

theorem exec_tell_of_error (hcheck : o.overwrite = true → Encoding.utf8.check r.text = .ok ())
    (h : (tell host o r).exec s = (.error e, t))
    : placing host o r.target r.text = .error e ∧ t.stdout = s.stdout ++ told host o r := by
  rw [exec_tell hcheck, Prod.mk.injEq] at h
  refine ⟨h.1, ?_⟩
  rw [← h.2]

theorem exec_emitResult_of_error (himpossible : r.target.isImpossible = false)
    (h : (emitResult host o r).exec s = (.error e, t))
    : (e.OfFiles ∧ t.stdout = s.stdout) ∨
        placing host o r.target r.text = .error e ∧ t.stdout = s.stdout ++ told host o r := by
  rw [emitResult_eq] at h
  cases hoverwrite : o.overwrite with
  | false =>
    rw [if_neg (by simp [hoverwrite])] at h
    exact .inr (exec_tell_of_error (by simp [hoverwrite]) h)
  | true =>
    rw [if_pos hoverwrite] at h
    obtain ⟨u, hinfo, hu⟩ : ∃ u, (info host "powerups.cli._utils"
        ("Overwrites source file " ++ r.target.toText)).exec s = (.ok (), u) ∧ u.stdout = s.stdout :=
      ⟨_, rfl, (Silent.info (P := fun _ => True) host _ _).stdout s⟩
    rw [exec_bind_of_ok hinfo] at h
    have hwrite := silent_writeText himpossible r.text
    have hstdout := hwrite.stdout u
    have hfails := hwrite.failsBy u
    cases hexec : (writeText r.target r.text).exec u with
    | mk outcome v =>
      rw [hexec] at hstdout hfails
      have hv : v.stdout = s.stdout := hstdout.trans hu
      cases outcome with
      | error e' =>
        rw [exec_bind_of_error hexec, Prod.mk.injEq, Except.error.injEq] at h
        obtain ⟨rfl, rfl⟩ := h
        rcases hfails _ rfl with hfiles | hcheck
        . exact .inl ⟨hfiles, hv⟩
        . obtain ⟨hplacing, htold⟩ := told_of_check_eq_error host hoverwrite hcheck
          right
          refine ⟨hplacing, ?_⟩
          rw [htold, List.append_nil, hv]
      | ok _ =>
        have hcheck := check_of_exec_writeText hexec
        rw [exec_bind_of_ok hexec] at h
        rw [← hv]
        exact .inr (exec_tell_of_error (fun _ => hcheck) h)

end Emit

end Command
end Transclusion
