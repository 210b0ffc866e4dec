import Transclusion.Proofs.Command.Logging
import Transclusion.Proofs.FileSystem.Growth

/-!
This module contains what becomes of the log over any history of configurations, records and resets
(`history_lawful`): there is at most one handler, the one of the last configuration, which is found to be
so by what every step keeps (`Ready`). Files only grow.
-/

namespace Transclusion

open Log (Channel Handler Record Route Target)

/-! ## Channels -/

namespace Log.Channel

variable {c : Channel} {found : Option Handler} {target : Target}

inductive Holds (c : Channel) : Option Handler → Prop
  | nothing (hattached : c.attached = []) (hcurrent : c.current = none) : Holds c none
  | handler {h : Handler} (hattached : c.attached = [h]) (hcurrent : c.current = some h.number)
    (htarget : c.target = some h.target) (hlevel : h.level = c.level) : Holds c (some h)

theorem Holds.attached_eq (h : c.Holds found) : c.attached = found.toList := by
  cases h with
  | nothing hattached => exact hattached
  | handler hattached => exact hattached

theorem Holds.handler_eq (h : c.Holds found) : c.handler = found := by
  unfold Channel.handler
  cases h with
  | nothing hattached => rw [hattached, List.find?_nil]
  | handler hattached hcurrent => simp [hattached, isCurrent, hcurrent]

theorem Holds.detach (h : c.Holds found) : c.detach.Holds none := by
  refine .nothing ?_ rfl
  cases h with
  | nothing hattached => simp [Channel.detach, hattached]
  | handler hattached hcurrent => simp [Channel.detach, hattached, isCurrent, hcurrent]

theorem Holds.detach_setLevel (h : c.Holds found) (level : Int)
    : (c.setLevel level).detach.Holds none := by
  cases h.detach with
  | nothing hattached hcurrent => exact .nothing hattached hcurrent

theorem Holds.reset (h : c.Holds found) : c.reset.Holds none := by
  cases h.detach with
  | nothing hattached hcurrent => exact .nothing hattached hcurrent

theorem Holds.attach (h : c.Holds none) (target : Target)
    : (c.attach target c.level).Holds (some { number := c.made, target, level := c.level }) := by
  refine .handler ?_ rfl rfl rfl
  rw [Channel.attach, h.attached_eq]
  rfl

theorem Holds.serves_iff (h : c.Holds found)
    : c.serves target = true ↔ ∃ handler, found = some handler ∧ handler.target = target := by
  cases h with
  | nothing _ hcurrent => simp [serves, hcurrent]
  | handler _ hcurrent htarget => simp [serves, hcurrent, htarget]

theorem Holds.setHandlerLevel {h : Handler} (hc : c.Holds (some h)) (level : Int)
    : ((c.setLevel level).setHandlerLevel level).Holds (some { h with level }) := by
  cases hc with
  | handler hattached hcurrent htarget =>
    refine .handler ?_ hcurrent htarget rfl
    simp [Channel.setHandlerLevel, setLevel, hattached, isCurrent, hcurrent]

def Passes (c : Channel) (r : Record) : Prop :=
  0 < r.level ∧ (if c.level = 0 then warning else c.level) ≤ r.level

theorem threshold_of_isOwn {source : Text} (h : isOwn source = true)
    : c.threshold source = if c.level = 0 then warning else c.level := by
  by_cases hlevel : c.level = 0 <;> simp [threshold, h, hlevel]

theorem Holds.routes_of_passes {h : Handler} {r : Record} (hc : c.Holds (some h))
    (hown : isOwn r.source = true) (hpasses : c.Passes r) : c.routes r = [.line h.target] := by
  cases hc with
  | handler hattached _ _ hlevel =>
    obtain ⟨hpos, hle⟩ := hpasses
    have hhandler : h.level ≤ r.level := by
      rw [hlevel]
      split at hle <;> omega
    rw [routes, threshold_of_isOwn hown, handlersOf, if_pos hown, hattached, if_neg]
    . simp [hhandler]
    . simp only [Bool.or_eq_true, decide_eq_true_eq]
      omega

theorem routes_of_not_passes {r : Record} (hown : isOwn r.source = true) (h : ¬ c.Passes r)
    : c.routes r = [] := by
  rw [routes, threshold_of_isOwn hown, if_pos]
  unfold Passes at h
  simp only [Bool.or_eq_true, decide_eq_true_eq]
  omega

end Log.Channel

/-! ## Sessions -/

namespace Action

section Sessions

variable [Surrogates] {s t : Session} {found : Option Handler}

structure Ready (s : Session) (found : Option Handler) : Prop where
  channel : s.channel.Holds found
  file : ∀ handler path, found = some handler → handler.target = .file path →
    ∃ bytes, s.files.readBytes path = .ok bytes

structure Keeps (s t : Session) : Prop where
  channel : t.channel = s.channel
  files : s.files.Grows t.files

theorem Keeps.ready (h : Keeps s t) (hs : Ready s found) : Ready t found where
  channel := h.channel ▸ hs.channel
  file handler path hfound htarget := by
    obtain ⟨bytes, hbytes⟩ := hs.file handler path hfound htarget
    obtain ⟨more, hmore⟩ := h.files.readBytes hbytes
    exact ⟨_, hmore⟩

theorem ready_none {files : FileSystem} {channel : Channel} (h : channel.Holds none) (s : Session)
    : Ready { s with files, channel } none where
  channel := h
  file _ _ hfound := nomatch hfound

theorem keeps_deliverTo (clock : Text) (r : Record) (s : Session) (route : Route)
    : Keeps s (deliverTo clock r s route) := by
  unfold deliverTo
  split
  next => exact ⟨rfl, .refl _⟩
  next => exact ⟨rfl, .refl _⟩
  next path =>
    split
    next files hfiles => exact ⟨rfl, FileSystem.grows_appendText hfiles⟩
    next => exact ⟨rfl, .refl _⟩

theorem keeps_deliver (clock : Text) (r : Record) (s : Session) : Keeps s (deliver clock r s) := by
  unfold deliver
  generalize s.channel.routes r = routes
  induction routes generalizing s with
  | nil => exact ⟨rfl, .refl _⟩
  | cons route routes ih =>
    have hstep := keeps_deliverTo clock r s route
    have hrest := ih (deliverTo clock r s route)
    exact ⟨hrest.channel.trans hstep.channel, hstep.files.trans hrest.files⟩

inductive Written (line : Text) (s : Session) : Target → Session → Prop
  | errors : Written line s .errors { s with stderr := s.stderr ++ line }
  | file {path : Path} {bytes : List UInt8} {files : FileSystem}
    (hline : Encoding.utf8.check line = .ok ()) (hbytes : s.files.readBytes path = .ok bytes)
    (h : FileSystem.Overwritten s.files files path (bytes ++ Utf8.encode line)) :
    Written line s (.file path) { s with files }
  | lost {path : Path} {e : Failure} (hline : Encoding.utf8.check line = .error e) :
    Written line s (.file path) s

theorem Ready.written {handler : Handler} (hs : Ready s (some handler)) (clock : Text) {r : Record}
    (hown : Log.isOwn r.source = true) (hpasses : s.channel.Passes r)
    : Written (r.line clock) s handler.target (deliver clock r s) := by
  rw [deliver, hs.channel.routes_of_passes hown hpasses]
  change Written _ s handler.target (deliverTo clock r s (.line handler.target))
  cases htarget : handler.target with
  | errors => exact .errors
  | file path =>
    obtain ⟨bytes, hbytes⟩ := hs.file handler path rfl htarget
    cases hline : Encoding.utf8.check (r.line clock) with
    | error e =>
      rw [deliverTo, FileSystem.appendText, hline]
      exact .lost hline
    | ok _ =>
      obtain ⟨files, hfiles, hoverwritten⟩ := FileSystem.exists_appendText hbytes hline
      rw [deliverTo, hfiles]
      exact .file hline hbytes hoverwritten

theorem deliver_of_not_passes (clock : Text) {r : Record} (hown : Log.isOwn r.source = true)
    (h : ¬ s.channel.Passes r) : deliver clock r s = s := by
  rw [deliver, Log.Channel.routes_of_not_passes hown h]
  rfl

/-! ## Configurations -/

theorem grows_opened (fs : FileSystem) (target : Target) : fs.Grows (opened fs target).2 := by
  unfold opened
  split
  next => exact .refl fs
  next path =>
    split
    next => exact .refl fs
    next made hmade =>
      have hgrows := FileSystem.frame_grows.ensureDirectory hmade
      split
      next => exact hgrows
      next files hfiles => exact hgrows.trans (FileSystem.grows_appendText hfiles)

theorem exists_readBytes_of_opened {fs files : FileSystem} {path : Path}
    (h : opened fs (.file path) = (.ok (), files)) : ∃ bytes, files.readBytes path = .ok bytes := by
  unfold opened at h
  split at h
  next heq => cases heq
  next heq =>
    cases heq
    split at h
    next => cases h
    next =>
      split at h
      next => cases h
      next hfiles =>
        cases h
        exact FileSystem.exists_readBytes_of_appendText hfiles

inductive Configured (level : Int) (path : Option Path) (s : Session) :
    Except Failure Unit × Session → Prop
  | refused {e : Failure} (h : targetIn s.files path = .error e) : Configured level path s (.error e, s)
  | installed {handler : Handler} {t : Session} (htarget : targetIn s.files path = .ok handler.target)
    (hready : Ready t (some handler)) (hlevel : handler.level = level)
    (hchannel : t.channel.level = level) (hgrows : s.files.Grows t.files) :
    Configured level path s (.ok (), t)
  | unopened {target : Target} {e : Failure} {t : Session} (htarget : targetIn s.files path = .ok target)
    (hready : Ready t none) (hgrows : s.files.Grows t.files) : Configured level path s (.error e, t)

theorem configured_cases (hs : Ready s found) (level : Int) (path : Option Path)
    : Configured level path s (configured level path s) := by
  unfold configured
  cases htarget : targetIn s.files path with
  | error e => exact .refused htarget
  | ok target =>
    dsimp only
    split
    next hserves =>
      obtain ⟨handler, rfl, rfl⟩ := hs.channel.serves_iff.mp hserves
      have hready : Ready { s with channel := (s.channel.setLevel level).setHandlerLevel level }
          (some { handler with level }) := by
        refine ⟨hs.channel.setHandlerLevel level, ?_⟩
        rintro _ path' ⟨⟩ hpath
        exact hs.file handler path' rfl hpath
      exact @Configured.installed _ _ _ s { handler with level } _ htarget hready rfl rfl (.refl _)
    next =>
      have hgrows := grows_opened s.files target
      have hdetached : (s.channel.setLevel level).detach.Holds none := hs.channel.detach_setLevel level
      split
      next e files hopened =>
        rw [hopened] at hgrows
        exact .unopened htarget (ready_none hdetached s) hgrows
      next files hopened =>
        rw [hopened] at hgrows
        have hready : Ready { s with files, channel := (s.channel.setLevel level).detach.attach target level }
            (some { number := s.channel.made, target, level }) := by
          refine ⟨hdetached.attach target, ?_⟩
          rintro _ path' ⟨⟩ rfl
          exact exists_readBytes_of_opened hopened
        exact .installed htarget hready rfl rfl hgrows

theorem configured_of_none (h : s.channel.Holds none) (level : Int) (path : Option Path)
    : (configured level path s).1
        =
      (targetIn s.files path).bind fun target => (opened s.files target).1 := by
  unfold configured
  cases targetIn s.files path with
  | error e => rfl
  | ok target =>
    have hserves : ¬ s.channel.serves target = true := by
      rw [h.serves_iff]
      rintro ⟨handler, hnone, -⟩
      cases hnone
    dsimp only
    rw [if_neg hserves, Except.bind]
    rcases opened s.files target with ⟨outcome, files⟩
    cases outcome <;> rfl

/-! ## Histories -/

inductive Event
  | configure (level : Text) (path : Option Path)
  | record (host : Host) (r : Record)
  | reset

def Event.action : Event → Action Unit
  | configure level path => configureLog level path
  | record host r => log host r
  | reset => resetLog

def after (files : FileSystem) (level : Int) (events : List Event) : Session :=
  events.foldl (fun s event => (event.action.exec s).2) { files, channel := { level } }

theorem ready_exec (hs : Ready s found) (event : Event)
    : (∃ found', Ready (event.action.exec s).2 found') ∧ s.files.Grows (event.action.exec s).2.files := by
  cases event with
  | configure level path =>
    rw [Event.action, exec_configureLog]
    have hcases := configured_cases hs (Log.levelOfText level) path
    revert hcases
    generalize configured (Log.levelOfText level) path s = ended
    intro hcases
    cases hcases with
    | refused => exact ⟨⟨found, hs⟩, .refl _⟩
    | installed _ hready _ _ hgrows => exact ⟨⟨_, hready⟩, hgrows⟩
    | unopened _ hready hgrows => exact ⟨⟨none, hready⟩, hgrows⟩
  | record host r =>
    have hkeeps := keeps_deliver host.clock r s
    exact ⟨⟨found, hkeeps.ready hs⟩, hkeeps.files⟩
  | reset => exact ⟨⟨none, ready_none hs.channel.reset s⟩, .refl _⟩

theorem ready_foldl (hs : Ready s found) (events : List Event)
    : let ended := events.foldl (fun s event => (event.action.exec s).2) s
      (∃ found', Ready ended found') ∧ s.files.Grows ended.files := by
  induction events generalizing s found with
  | nil => exact ⟨⟨found, hs⟩, .refl _⟩
  | cons event events ih =>
    obtain ⟨⟨found', hstep⟩, hgrows⟩ := ready_exec hs event
    obtain ⟨hrest, hgrows'⟩ := ih hstep
    exact ⟨hrest, hgrows.trans hgrows'⟩

structure Lawful (s : Session) : Prop where
  atMostOne : s.channel.attached.length ≤ 1
  current : s.channel.attached = s.channel.handler.toList
  configured : ∀ level path t, (configureLog level path).exec s = (.ok (), t) →
    ∃ handler, t.channel.attached = [handler] ∧ targetIn s.files path = .ok handler.target ∧
      handler.level = Log.levelOfText level ∧ t.channel.level = Log.levelOfText level
  failed : ∀ level path e t, (configureLog level path).exec s = (.error e, t) →
    (targetIn s.files path = .error e ∧ t = s) ∨
      ((∃ target, targetIn s.files path = .ok target) ∧ t.channel.attached = [])
  installs : s.channel.attached = [] → ∀ level path, ((configureLog level path).exec s).1
    = (targetIn s.files path).bind fun target => ((openTarget target).exec s).1
  reset : ∀ outcome t, resetLog.exec s = (outcome, t) → outcome = .ok () ∧ t.channel.attached = []
  written : ∀ handler, s.channel.attached = [handler] → ∀ host r, Log.isOwn r.source = true →
    s.channel.Passes r → Written (r.line host.clock) s handler.target ((log host r).exec s).2
  unwritten : ∀ host r, Log.isOwn r.source = true → ¬ s.channel.Passes r → ((log host r).exec s).2 = s

theorem Ready.lawful (hs : Ready s found) : Lawful s where
  atMostOne := by
    rw [hs.channel.attached_eq]
    cases found <;> simp
  current := by
    rw [hs.channel.handler_eq]
    exact hs.channel.attached_eq
  configured level path t h := by
    have hcases := configured_cases hs (Log.levelOfText level) path
    rw [← exec_configureLog, h] at hcases
    cases hcases with
    | installed htarget hready hlevel hchannel =>
      exact ⟨_, hready.channel.attached_eq, htarget, hlevel, hchannel⟩
  failed level path e t h := by
    have hcases := configured_cases hs (Log.levelOfText level) path
    rw [← exec_configureLog, h] at hcases
    cases hcases with
    | refused hrefused => exact .inl ⟨hrefused, rfl⟩
    | unopened htarget hready => exact .inr ⟨⟨_, htarget⟩, hready.channel.attached_eq⟩
  installs hempty level path := by
    have hnone : found = none := by
      rw [hs.channel.attached_eq] at hempty
      cases found
      . rfl
      . cases hempty
    subst hnone
    simp only [exec_configureLog, configured_of_none hs.channel, exec_openTarget]
  reset outcome t h := by
    rw [exec_resetLog] at h
    cases h
    exact ⟨rfl, hs.channel.reset.attached_eq⟩
  written handler hattached host r hown hpasses := by
    have hfound : found = some handler := by
      rw [hs.channel.attached_eq] at hattached
      cases found with
      | none => cases hattached
      | some _ =>
        cases hattached
        rfl
    subst hfound
    exact hs.written host.clock hown hpasses
  unwritten host r hown h := deliver_of_not_passes host.clock hown h

/-- After any history of configurations, records and resets the log does what it should, and no file
loses anything in what follows. -/
theorem history_lawful (files : FileSystem) (level : Int) (events : List Event)
    : Lawful (after files level events) ∧
      ∀ more, (after files level events).files.Grows (after files level (events ++ more)).files := by
  have hstart : Ready { files, channel := { level } } none := ready_none (.nothing rfl rfl) { files }
  obtain ⟨⟨found, hready⟩, -⟩ := ready_foldl hstart events
  refine ⟨hready.lawful, fun more => ?_⟩
  rw [after, after, List.foldl_append]
  exact (ready_foldl hready more).2

end Sessions

attribute [local instance] Surrogates.lastBlock

def logHost : Host where
  homes := ∅
  ids _ := []
  clock := []
  timestamp := []
  console := .utf8

theorem history_nullInPath
    : (let s := after {} 0 [.configure "WARNING" none]
      let path : Path := { root := .none, names := [['a', '\x00', 'b']] }
      ((configureLog "WARNING" (some path)).exec s).1 = .error .nullInPath ∧
        ((configureLog "WARNING" (some path)).exec s).2.channel.attached =
          [{ number := 0, target := .errors, level := 30 }]) ∧
      let path : Path := { root := .slash, names := [['l']] }
      let s := after {} 0 [.configure "WARNING" (some path)]
      let r : Record :=
        { level := Log.warning, source := "powerups", message := [Surrogates.standIn 0xd800] }
      s.channel.attached = [{ number := 0, target := .file path, level := 30 }] ∧
        Log.isOwn r.source = true ∧ s.channel.Passes r ∧
        s.files.readBytes path = .ok [] ∧ ((log logHost r).exec s).2.files.readBytes path = .ok [] :=
  ⟨⟨rfl, rfl⟩, rfl, rfl, ⟨by decide, by decide⟩, rfl, rfl⟩

end Action
end Transclusion
