import Mathlib.Tactic.Choose
import Transclusion.Proofs.Command.Steps

/-!
This module contains what the parts of a command do before anything is printed or written: such a part
only reads files and uses up ids, and what it comes to depends on nothing else (`Quiet`). Sequences keep
that property, and so does handling a failure.
-/

namespace Transclusion

theorem Log.Channel.exists_handler_of_mem_routes {c : Log.Channel} {r : Log.Record}
    {target : Log.Target} (h : .line target ∈ c.routes r)
    : ∃ handler ∈ c.attached, handler.target = target := by
  unfold routes at h
  split at h
  . simp at h
  . split at h
    . split at h <;> simp at h
    . rw [List.mem_map] at h
      obtain ⟨handler, hhandler, htarget⟩ := h
      have hmem := (List.mem_filter.mp hhandler).1
      unfold handlersOf at hmem
      split at hmem
      . exact ⟨handler, hmem, Log.Route.line.inj htarget⟩
      . simp at hmem

def Session.LogsToErrors (s : Session) : Prop :=
  ∀ handler ∈ s.channel.attached, handler.target = .errors

theorem Session.LogsToErrors.line_file_not_mem_routes {s : Session} (hs : s.LogsToErrors)
    (r : Log.Record) (path : Path) : .line (.file path) ∉ s.channel.routes r := by
  intro hroute
  obtain ⟨handler, hhandler, htarget⟩ := Log.Channel.exists_handler_of_mem_routes hroute
  rw [hs handler hhandler] at htarget
  cases htarget

theorem Action.exists_foldl_deliverTo [Surrogates] {routes : List Log.Route}
    (hroutes : ∀ path, .line (.file path) ∉ routes) (clock : Text) (r : Log.Record) (s : Session)
    : ∃ stderr, routes.foldl (deliverTo clock r) s = { s with stderr } := by
  induction routes generalizing s with
  | nil => exact ⟨s.stderr, rfl⟩
  | cons route routes ih =>
    have hrest : ∀ path, .line (.file path) ∉ routes := by
      intro path hpath
      exact hroutes path (List.mem_cons_of_mem _ hpath)
    cases route with
    | bare => exact ih hrest _
    | line target =>
      cases target with
      | errors => exact ih hrest _
      | file path => exact absurd List.mem_cons_self (hroutes path)

theorem Session.LogsToErrors.exists_deliver [Surrogates] {s : Session} (hs : s.LogsToErrors) (clock : Text)
    (r : Log.Record) : ∃ stderr, Action.deliver clock r s = { s with stderr } :=
  Action.exists_foldl_deliverTo (hs.line_file_not_mem_routes r) clock r s

namespace Action

variable {α β : Type}

theorem exec_log [Surrogates] (host : Host) {s : Session} (hs : s.LogsToErrors) (r : Log.Record)
    : ∃ stderr, (log host r).exec s = (.ok (), { s with stderr }) := by
  obtain ⟨stderr, hdeliver⟩ := hs.exists_deliver host.clock r
  refine ⟨stderr, ?_⟩
  rw [← hdeliver]
  rfl

def Quiet (a : Action α) : Prop :=
  ∃ outcome : FileSystem → Nat → Except Failure α × Nat, ∀ s : Session, s.LogsToErrors →
    ∃ stderr, a.exec s
      = ((outcome s.files s.idsDrawn).1,
        { s with stderr, idsDrawn := (outcome s.files s.idsDrawn).2 })

namespace Quiet

theorem pure (x : α) : Quiet (Pure.pure x) :=
  ⟨fun _ n => (.ok x, n), fun s _ => ⟨s.stderr, rfl⟩⟩

theorem ofExcept (x : Except Failure α) : Quiet (ofExcept x) :=
  ⟨fun _ n => (x, n), fun s _ => ⟨s.stderr, exec_ofExcept x s⟩⟩

theorem bind {a : Action α} {f : α → Action β} (ha : Quiet a) (hf : ∀ x, Quiet (f x))
    : Quiet (a >>= f) := by
  obtain ⟨outcome, ha⟩ := ha
  choose next hf using hf
  refine ⟨fun fs n =>
    match outcome fs n with
    | (.ok x, m) => next x fs m
    | (.error e, m) => (.error e, m), ?_⟩
  intro s hs
  obtain ⟨stderr, ha⟩ := ha s hs
  rw [exec_bind, ha]
  dsimp only
  cases houtcome : outcome s.files s.idsDrawn with
  | mk result m =>
    cases result with
    | error e => exact ⟨stderr, rfl⟩
    | ok x => exact hf x { s with stderr, idsDrawn := m } hs

theorem exec_bind_eq_ok {a : Action α} {f : α → Action β} (ha : Quiet a) {s t : Session}
    (hs : s.LogsToErrors) {y : β} (h : (a >>= f).exec s = (.ok y, t))
    : ∃ x s', s'.files = s.files ∧ s'.LogsToErrors ∧ (f x).exec s' = (.ok y, t) := by
  obtain ⟨outcome, ha⟩ := ha
  obtain ⟨stderr, ha⟩ := ha s hs
  obtain ⟨x, s', hx, h⟩ := Action.exec_bind_eq_ok h
  rw [hx, Prod.mk.injEq] at ha
  refine ⟨x, s', ?_, ?_, h⟩
  . rw [ha.2]
  . rw [ha.2]
    exact hs

theorem tryCatch {a : Action α} {handle : Failure → Action α} (ha : Quiet a)
    (hhandle : ∀ e, Quiet (handle e)) : Quiet (tryCatch a handle) := by
  obtain ⟨outcome, ha⟩ := ha
  choose next hhandle using hhandle
  refine ⟨fun fs n =>
    match outcome fs n with
    | (.ok x, m) => (.ok x, m)
    | (.error e, m) => next e fs m, ?_⟩
  intro s hs
  obtain ⟨stderr, ha⟩ := ha s hs
  rw [exec_tryCatch, ha]
  dsimp only
  cases houtcome : outcome s.files s.idsDrawn with
  | mk result m =>
    cases result with
    | error e => exact hhandle e { s with stderr, idsDrawn := m } hs
    | ok x => exact ⟨stderr, rfl⟩

-- Of the session an action may look at the files and at the number of ids.
theorem get {f : Session → Action α} (hf : ∀ s, Quiet (f s))
    (hsame : ∀ s, f s = f { files := s.files, idsDrawn := s.idsDrawn })
    : Quiet (MonadState.get >>= f) := by
  choose outcome hf using hf
  refine ⟨fun fs n => outcome { files := fs, idsDrawn := n } fs n, ?_⟩
  intro s hs
  rw [exec_bind_of_ok (exec_get s), hsame]
  exact hf _ s hs

theorem useIds (n : Nat) : Quiet (modify fun s : Session => { s with idsDrawn := n }) :=
  ⟨fun _ _ => (.ok (), n), fun s _ => ⟨s.stderr, rfl⟩⟩

theorem agree {a : Action α} (ha : Quiet a) {s t : Session} (hs : s.LogsToErrors)
    (ht : t.LogsToErrors) (hfiles : s.files = t.files) (hdrawn : s.idsDrawn = t.idsDrawn)
    : (a.exec s).1 = (a.exec t).1 := by
  obtain ⟨outcome, ha⟩ := ha
  obtain ⟨_, has⟩ := ha s hs
  obtain ⟨_, hat⟩ := ha t ht
  rw [has, hat, hfiles, hdrawn]

theorem log [Surrogates] (host : Host) (r : Log.Record) : Quiet (log host r) := by
  refine ⟨fun _ n => (.ok (), n), ?_⟩
  intro s hs
  exact exec_log host hs r

end Quiet

theorem closed_quiet [Surrogates] : Closed fun _ a => Quiet a where
  pure := Quiet.pure
  ofExcept := Quiet.ofExcept
  bind := Quiet.bind
  tryCatch := Quiet.tryCatch
  get := Quiet.get
  useIds := Quiet.useIds
  log := Quiet.log

end Action
end Transclusion
