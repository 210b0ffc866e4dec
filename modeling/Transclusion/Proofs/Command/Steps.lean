import Transclusion.Command.Run

/-!
This module contains how a property of actions comes from the single steps to the parts of a command: one
that sequences keep, and handling a failure, holds of everything that a command does before it puts its
result anywhere (`Closed`).
-/

namespace Transclusion
namespace Action

variable {α β : Type}

def exec (a : Action α) (s : Session) : Except Failure α × Session :=
  a.run.run s

theorem exec_pure (x : α) (s : Session) : (pure x : Action α).exec s = (.ok x, s) := by rfl

theorem exec_throw (e : Failure) (s : Session) : (throw e : Action α).exec s = (.error e, s) := by rfl

theorem exec_get (s : Session) : (get : Action Session).exec s = (.ok s, s) := by rfl

theorem exec_modify (f : Session → Session) (s : Session)
    : (modify f : Action Unit).exec s = (.ok (), f s) := by rfl

theorem exec_ofExcept (x : Except Failure α) (s : Session)
    : (ofExcept x : Action α).exec s = (x, s) := by
  cases x <;> rfl

theorem exec_bind (a : Action α) (f : α → Action β) (s : Session)
    : (a >>= f).exec s
        =
      match a.exec s with
      | (.ok x, t) => (f x).exec t
      | (.error e, t) => (.error e, t) := by
  unfold exec
  rw [ExceptT.run_bind, StateT.run_bind]
  cases a.run.run s with
  | mk x t => cases x <;> rfl

theorem exec_tryCatch (a : Action α) (handle : Failure → Action α) (s : Session)
    : (tryCatch a handle).exec s
        =
      match a.exec s with
      | (.ok x, t) => (.ok x, t)
      | (.error e, t) => (handle e).exec t := by
  unfold exec
  rw [ExceptT.run_tryCatch, StateT.run_bind]
  cases a.run.run s with
  | mk x t => cases x <;> rfl

theorem exec_bind_of_ok {a : Action α} {f : α → Action β} {s t : Session} {x : α}
    (h : a.exec s = (.ok x, t)) : (a >>= f).exec s = (f x).exec t := by
  rw [exec_bind, h]

theorem exec_bind_of_error {a : Action α} {f : α → Action β} {s t : Session} {e : Failure}
    (h : a.exec s = (.error e, t)) : (a >>= f).exec s = (.error e, t) := by
  rw [exec_bind, h]

theorem exec_bind_eq_ok {a : Action α} {f : α → Action β} {s t : Session} {y : β}
    (h : (a >>= f).exec s = (.ok y, t))
    : ∃ x s', a.exec s = (.ok x, s') ∧ (f x).exec s' = (.ok y, t) := by
  rw [exec_bind] at h
  split at h
  next x s' ha => exact ⟨x, s', ha, h⟩
  next => simp at h

theorem exec_inspect (f : FileSystem → Except Failure α) (s : Session)
    : (inspect f).exec s = (f s.files, s) := by
  unfold inspect
  rw [exec_bind_of_ok (exec_get s), exec_ofExcept]

theorem exec_change {f : FileSystem → Except Failure FileSystem} {s : Session} {files : FileSystem}
    (h : f s.files = .ok files) : (change f).exec s = (.ok (), { s with files }) := by
  unfold change
  rw [exec_bind, exec_inspect, h]
  rfl

variable [Surrogates]

theorem exec_forM_log (host : Host) (records : List Log.Record) (s : Session)
    : ∃ t, (records.forM (log host)).exec s = (.ok (), t) := by
  induction records generalizing s with
  | nil => exact ⟨s, rfl⟩
  | cons r records ih => exact ih _

theorem outcome_carryOut (host : Host) (document : Text) (step : Expansion.Run α) (s : Session)
    : ((carryOut host document step).exec s).1
        =
      (Preprocess.start document s.idsDrawn step).1.map fun x =>
        (x, (Preprocess.start document s.idsDrawn step).2.report) := by
  unfold carryOut
  rw [exec_bind_of_ok (exec_get s)]
  cases Preprocess.start document s.idsDrawn step with
  | mk outcome progress =>
    obtain ⟨t, ht⟩ := exec_forM_log host progress.log { s with idsDrawn := progress.idsDrawn }
    dsimp only
    rw [exec_bind_of_ok (exec_modify ..), exec_bind_of_ok ht]
    cases outcome <;> rfl

theorem start_of_exec_carryOut {host : Host} {document : Text} {step : Expansion.Run α} {s t : Session}
    {x : α} {report : Report} (h : (carryOut host document step).exec s = (.ok (x, report), t))
    : (Preprocess.start document s.idsDrawn step).1 = .ok x := by
  have houtcome := outcome_carryOut host document step s
  rw [h] at houtcome
  cases hstart : (Preprocess.start document s.idsDrawn step).1 with
  | error e =>
    rw [hstart] at houtcome
    cases houtcome
  | ok y =>
    rw [hstart] at houtcome
    cases houtcome
    rfl

structure Closed (P : (α : Type) → Action α → Prop) : Prop where
  pure : ∀ {α : Type} (x : α), P α (pure x)
  ofExcept : ∀ {α : Type} (x : Except Failure α), P α (ofExcept x)
  bind : ∀ {α β : Type} {a : Action α} {f : α → Action β}, P α a → (∀ x, P β (f x)) → P β (a >>= f)
  tryCatch : ∀ {α : Type} {a : Action α} {handle : Failure → Action α},
    P α a → (∀ e, P α (handle e)) → P α (tryCatch a handle)
  -- Of the session an action may look at the files and at the number of ids.
  get : ∀ {α : Type} {f : Session → Action α}, (∀ s, P α (f s)) →
    (∀ s, f s = f { files := s.files, idsDrawn := s.idsDrawn }) → P α (MonadState.get >>= f)
  useIds : ∀ n, P Unit (modify fun s : Session => { s with idsDrawn := n })
  log : ∀ host r, P Unit (log host r)

namespace Closed

variable {P : (α : Type) → Action α → Prop} (h : Closed P)

include h

theorem throw (e : Failure) : P α (throw e) :=
  h.ofExcept (.error e)

theorem inspect (f : FileSystem → Except Failure α) : P α (inspect f) := by
  apply h.get _ fun _ => rfl
  intro s
  apply h.ofExcept

theorem either {c : Prop} [Decidable c] {a b : Action α} {f : α → Action β} (ha : P α a) (hb : P α b)
    (hf : ∀ x, P β (f x)) : P β (if c then a >>= f else b >>= f) := by
  split
  . exact h.bind ha hf
  . exact h.bind hb hf

theorem info (host : Host) (source message : Text) : P Unit (info host source message) :=
  h.log host _

theorem forM_log (host : Host) (records : List Log.Record)
    : P Unit (records.forM (Action.log host)) := by
  induction records with
  | nil => exact h.pure ()
  | cons r records ih => exact h.bind (h.log host r) fun _ => ih

theorem loadConfiguration (host : Host) (root : Path) : P Document (loadConfiguration host root) := by
  apply h.get _ fun _ => rfl
  intro s
  apply h.bind (h.forM_log host _)
  intro _
  apply h.ofExcept

theorem carryOut (host : Host) (document : Text) (step : Expansion.Run α)
    : P (α × Report) (carryOut host document step) := by
  apply h.get _ fun _ => rfl
  intro s
  apply h.bind (h.useIds _)
  intro _
  apply h.bind (h.forM_log host _)
  intro _
  apply h.bind (h.ofExcept _)
  intro _
  apply h.pure

theorem sources (host : Host) (directory : Path) (selection : Selection)
    : P SourceIndex (sources host directory selection) := by
  apply h.bind (h.inspect _)
  intro index
  apply h.bind (h.log host _)
  intro _
  apply h.pure

end Closed
end Action

namespace Command

open Transclusion.Action

variable [Surrogates] {P : (α : Type) → Action α → Prop} (h : Closed P)

include h

theorem closed_repoRoot (root : Option Text) : P Path (repoRoot root) := by
  unfold repoRoot
  split
  . apply h.inspect
  . apply h.get _ fun _ => rfl
    intro s
    apply h.pure

theorem closed_documentPath (host : Host) (target : Text) : P Path (documentPath host target) := by
  apply h.bind (h.ofExcept _)
  intro path
  apply h.inspect

theorem closed_globalVariables (host : Host) (file : Option Text)
    : P Scope (globalVariables host file) := by
  unfold globalVariables
  split
  . apply h.bind (h.ofExcept _)
    intro path
    apply h.bind (h.info host _ _)
    intro _
    apply h.inspect
  . apply h.pure

theorem closed_includesFolder (host : Host) (root : Path) (config : Document) (folder : Option Text)
    : P (Option Path) (includesFolder host root config folder) := by
  unfold includesFolder
  split
  . apply h.bind (h.ofExcept _)
    intro path
    apply h.pure
  . apply h.ofExcept

theorem closed_cleanOnly (host : Host) (target : Path) (text : Text)
    : P (Text × Report) (cleanOnly host target text) := by
  apply h.bind (h.log host _)
  intro _
  apply h.bind (h.carryOut host _ _)
  intro _
  apply h.pure

theorem closed_logSettings (host : Host) (level : Text) (o : CommandLine.DocumentOptions)
    : P (Text × Option Path) (logSettings host level o) := by
  apply h.tryCatch
  . apply h.bind (closed_repoRoot h _)
    intro root
    apply h.bind (h.loadConfiguration host root)
    intro config
    apply h.either (h.ofExcept _) (h.pure level)
    intro level
    apply h.bind (h.ofExcept _)
    intro path
    apply h.pure
  . intro e
    split
    . apply h.pure
    . apply h.throw

end Command
end Transclusion
