import Transclusion.Proofs.Command.Steps

/-!
This module contains what setting up the log comes to, as a function of the session
(`exec_configureLog`): the path has to be resolved first, the handler of the last configuration may serve
for the new one, and otherwise it is gone before the new target is opened.
-/

namespace Transclusion
namespace Action

open Log (Target)

theorem exec_updateChannel (f : Log.Channel → Log.Channel) (s : Session)
    : (updateChannel f).exec s = (.ok (), { s with channel := f s.channel }) := by rfl

theorem exec_resetLog (s : Session) : resetLog.exec s = (.ok (), { s with channel := s.channel.reset }) := by
  rfl

theorem exec_change_eq (f : FileSystem → Except Failure FileSystem) (s : Session)
    : (change f).exec s
        =
      match f s.files with
      | .ok files => (.ok (), { s with files })
      | .error e => (.error e, s) := by
  unfold change
  rw [exec_bind, exec_inspect]
  cases f s.files <;> rfl

variable [Surrogates]

def targetIn (fs : FileSystem) : Option Path → Except Failure Target
  | some path => (fs.resolve path).map .file
  | none => .ok .errors

def opened (fs : FileSystem) : Target → Except Failure Unit × FileSystem
  | .errors => (.ok (), fs)
  | .file path =>
    match fs.ensureDirectory path.parent true with
    | .error e => (.error e, fs)
    | .ok made =>
      match made.appendText path [] with
      | .error e => (.error e, made)
      | .ok files => (.ok (), files)

def configured (level : Int) (path : Option Path) (s : Session) : Except Failure Unit × Session :=
  match targetIn s.files path with
  | .error e => (.error e, s)
  | .ok target =>
    let channel := s.channel.setLevel level
    if s.channel.serves target then (.ok (), { s with channel := channel.setHandlerLevel level })
    else
      match opened s.files target with
      | (.error e, files) => (.error e, { s with files, channel := channel.detach })
      | (.ok _, files) => (.ok (), { s with files, channel := channel.detach.attach target level })

theorem exec_targetOf (path : Option Path) (s : Session)
    : (targetOf path).exec s = (targetIn s.files path, s) := by
  cases path with
  | none => rfl
  | some path =>
    unfold targetOf targetIn
    rw [exec_bind, exec_inspect]
    dsimp only
    cases s.files.resolve path <;> rfl

theorem exec_openTarget (target : Target) (s : Session)
    : (openTarget target).exec s
        =
      ((opened s.files target).1, { s with files := (opened s.files target).2 }) := by
  cases target with
  | errors => rfl
  | file path =>
    unfold openTarget opened
    rw [exec_bind, exec_change_eq]
    dsimp only
    cases s.files.ensureDirectory path.parent true with
    | error e => rfl
    | ok made =>
      dsimp only
      rw [exec_change_eq]
      dsimp only
      cases made.appendText path [] <;> rfl

theorem exec_configureLog (level : Text) (path : Option Path) (s : Session)
    : (configureLog level path).exec s = configured (Log.levelOfText level) path s := by
  unfold configureLog configured
  rw [exec_bind, exec_targetOf]
  cases targetIn s.files path with
  | error e => rfl
  | ok target =>
    dsimp only
    rw [exec_bind_of_ok (exec_updateChannel ..), exec_bind_of_ok (exec_get ..)]
    -- The level of the channel plays no part in whether its handler serves.
    change Action.exec (if s.channel.serves target then _ else _) _ = _
    split
    . rfl
    . rw [exec_bind_of_ok (exec_updateChannel ..), exec_bind, exec_openTarget]
      dsimp only
      obtain ⟨outcome, files⟩ := opened s.files target
      cases outcome <;> rfl

end Action
end Transclusion
