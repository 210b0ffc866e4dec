import Mathlib.Logic.Relation
import Transclusion.Proofs.Command.Sparing
import Transclusion.Proofs.Expansion.Breaks

/-!
This module contains the way of a document through runs of the program that overwrite it: after any number
of expansions a cleaning brings back the text that was read first, byte for byte unless its line breaks
have carriage returns (`cleanup_restores`).
-/

namespace Transclusion
namespace Command

open Transclusion.Action CommandLine

section

variable [Surrogates]

/-! ## The document -/

structure Holds (host : Host) (o : DocumentOptions) (target : Path) (bytes : List UInt8) (s : Session)
    : Prop where
  path : targetPath host s.files o = .ok target
  bytes : s.files.readBytes target = .ok bytes
  log : s.LogsElsewhere target.names

section Document

variable {host : Host} {o : DocumentOptions} {target : Path} {s t : Session}

theorem locate_target {fs : FileSystem} {bytes : List UInt8} (hpath : targetPath host fs o = .ok target)
    (hbytes : fs.readBytes target = .ok bytes) : fs.locate target = .ok target.names := by
  obtain ⟨_, _, hresolve⟩ := exists_of_bind_eq_ok hpath
  obtain ⟨place, hplace, _⟩ := FileSystem.readBytes_eq_ok_iff.mp hbytes
  rw [(FileSystem.place_of_resolve hresolve hplace).2] at hplace
  exact hplace

theorem targetPath_eq {before after : FileSystem}
    (h : after.workingDirectory = before.workingDirectory)
    : targetPath host after o = targetPath host before o := by
  unfold targetPath FileSystem.resolve
  rw [h]

theorem Holds.of_spares {bytes : List UInt8} (h : Holds host o target bytes s)
    (hspares : s.Spares target.names t) : Holds host o target bytes t := by
  have hfiles := hspares.files h.log
  exact {
    path := (targetPath_eq hfiles.workingDirectory).trans h.path
    bytes := hfiles.readBytes (locate_target h.path h.bytes) h.bytes
    log := hspares.logsElsewhere h.log }

theorem exec_info {bytes : List UInt8} (h : Holds host o target bytes s) (source message : Text)
    : ∃ t, (info host source message).exec s = (.ok (), t) ∧ Holds host o target bytes t :=
  ⟨_, rfl, h.of_spares (spares_deliver _ _ _ s)⟩

theorem exec_document {text : Text} (h : Holds host o target (Utf8.encode text) s) (source : Text)
    : ∃ t, (document host source o).exec s = (.ok (target, Utf8.normalizeBreaks text), t) ∧
        Holds host o target (Utf8.encode text) t := by
  have hpath := exec_documentPath host o s
  rw [h.path] at hpath
  obtain ⟨t, hinfo, ht⟩ := exec_info h source ("File: " ++ target.toText)
  have hread : (inspect (·.readText target)).exec t = (.ok (Utf8.normalizeBreaks text), t) := by
    rw [exec_inspect, FileSystem.readText_of_readBytes ht.bytes]
  refine ⟨t, ?_, ht⟩
  unfold document
  rw [exec_bind_of_ok hpath, exec_bind_of_ok hinfo, exec_bind_of_ok hread]
  rfl

theorem exec_cleaned {text : Text} (h : Holds host o target (Utf8.encode text) s)
    : ∃ r t, (cleaned host o).exec s = (.ok r, t) ∧ r.target = target ∧
        r.text = Region.clean (Utf8.normalizeBreaks text) := by
  obtain ⟨t, hdocument, _⟩ := exec_document h cleanupSource
  have hclean := outcome_carryOut host target.toText (Preprocess.cleanup (Utf8.normalizeBreaks text)) t
  unfold Preprocess.start at hclean
  rw [Preprocess.exec_cleanup] at hclean
  cases hcarried : (Action.cleanup host target.toText (Utf8.normalizeBreaks text)).exec t with
  | mk outcome u =>
    unfold Action.cleanup at hcarried
    rw [hcarried] at hclean
    dsimp only [Except.map] at hclean
    rw [hclean] at hcarried
    unfold cleaned
    rw [exec_bind_of_ok hdocument]
    dsimp only
    unfold Action.cleanup
    rw [exec_bind_of_ok hcarried]
    exact ⟨_, _, rfl, rfl, rfl⟩

theorem exec_emitResult_of_holds {text : Text} (h : Holds host o target (Utf8.encode text) s)
    (hoverwrite : o.overwrite = true) {r : Result} (hr : r.target = target)
    : ∃ t, (emitResult host o r).exec s = (placing host o target r.text, t) ∧
        t.files.readBytes target = .ok (stored r.text) := by
  subst hr
  obtain ⟨u, hinfo, hu⟩ := exec_info h "powerups.cli._utils"
    ("Overwrites source file " ++ r.target.toText)
  obtain ⟨after, hafter, hwrite⟩ :=
    exec_writeText (isAbsolute_of_targetPath hu.path) hu.bytes r.text
  have hstored := hafter.readBytes hu.bytes
  rw [emitResult_eq, if_pos hoverwrite, exec_bind_of_ok hinfo]
  cases hcheck : Encoding.utf8.check r.text with
  | error e =>
    rw [hcheck] at hwrite
    rw [exec_bind_of_error hwrite, (told_of_check_eq_error _ hoverwrite hcheck).1]
    exact ⟨_, rfl, hstored⟩
  | ok _ =>
    rw [hcheck] at hwrite
    rw [exec_bind_of_ok hwrite, exec_tell fun _ => hcheck]
    exact ⟨_, rfl, hstored⟩

end Document

theorem exec_run_of_holds {host : Host} {c : CommandLine.Command} {target : Path} {text : Text}
    {s u : Session} (h : Holds host (options c) target (Utf8.encode text) s)
    (hoverwrite : (options c).overwrite = true) {r : Result}
    (hresult : (result host c).exec s = (.ok r, u)) (hr : r.target = target)
    : ∃ t, (run host c).exec s = ((placing host (options c) target r.text).map fun _ => 0, t) ∧
        t.files.readBytes target = .ok (stored r.text) := by
  have hu := h.of_spares ((closed_result (closed_sparing target.names) host c).of_exec hresult)
  obtain ⟨t, hemit, hbytes⟩ := exec_emitResult_of_holds hu hoverwrite hr
  refine ⟨t, ?_, hbytes⟩
  rw [run_eq]
  apply exec_reporting_of_placing
  rw [exec_bind_of_ok hresult, hemit]

/-! ## Expanding -/

structure Task where
  target : Path
  text : Text
  materials : Option (Expansion.Environment × Scope)

def readTask (host : Host) (o : ExpandOptions) : Action Task := do
  let root ← repoRoot o.repoRoot
  let config ← loadConfiguration host root
  let (target, text) ← document host expandSource o.toDocumentOptions
  let materials ← gathered host o root config
  return { target, text, materials }

theorem expanded_eq (host : Host) (o : ExpandOptions)
    : expanded host o
        =
      readTask host o >>= fun task => do
        let (text, report) ← worked host task.target task.text task.materials
        return { target := task.target, text, report } := by
  unfold expanded readTask
  simp only [expandedWith_eq, bind_assoc, pure_bind]

/-- The files have names that markers can hold, and no region that is inserted has its own closing marker
inside. -/
def Task.Sound (task : Task) (drawn : Nat) : Prop :=
  ∀ given ∈ task.materials,
    (∀ name ∈ given.1.library.index.keys, Region.Plain name) ∧
      ∀ e, (Preprocess.start task.target.toText drawn
          (Preprocess.processed given.1 given.2 task.text)).1 = .ok e →
        ∀ piece ∈ e.pieces, piece.block.ClosedOnce

instance decidableForallOk {α ε : Type} {x : Except ε α} {p : α → Prop} [DecidablePred p]
    : Decidable (∀ a, x = .ok a → p a) :=
  match x with
  | .ok a => decidable_of_iff (p a) (by simp)
  | .error _ => .isTrue (by simp)

instance (task : Task) (drawn : Nat) : Decidable (task.Sound drawn) :=
  inferInstanceAs (Decidable (∀ given ∈ task.materials, _ ∧ _))

section Expand

variable {host : Host} {o : ExpandOptions} {target : Path} {text : Text} {s t : Session}

theorem ids_of_gathered {root : Path} {config : Document} {env : Expansion.Environment}
    {globals : Scope} (h : (gathered host o root config).exec s = (.ok (some (env, globals)), t))
    : env.ids = host.ids := by
  unfold gathered at h
  obtain ⟨_, _, _, h⟩ := exec_bind_eq_ok h
  obtain ⟨folder, _, _, h⟩ := exec_bind_eq_ok h
  cases folder with
  | none => cases h
  | some folder =>
    obtain ⟨_, _, _, h⟩ := exec_bind_eq_ok h
    split at h
    all_goals
      obtain ⟨_, _, _, h⟩ := exec_bind_eq_ok h
      obtain ⟨_, _, _, h⟩ := exec_bind_eq_ok h
      obtain ⟨_, _, _, h⟩ := exec_bind_eq_ok h
      obtain ⟨_, _, _, h⟩ := exec_bind_eq_ok h
      obtain ⟨_, _, _, h⟩ := exec_bind_eq_ok h
      rw [exec_pure, Prod.mk.injEq, Except.ok.injEq, Option.some.injEq, Prod.mk.injEq] at h
      rw [← h.1.1]

theorem exec_readTask_eq_ok (h : Holds host o.toDocumentOptions target (Utf8.encode text) s)
    {task : Task} (htask : (readTask host o).exec s = (.ok task, t))
    : Holds host o.toDocumentOptions target (Utf8.encode text) t ∧ task.target = target ∧
        task.text = Utf8.normalizeBreaks text ∧
        ∀ env globals, task.materials = some (env, globals) → env.ids = host.ids := by
  have hclosed := closed_sparing target.names
  obtain ⟨root, s₁, hroot, htask⟩ := exec_bind_eq_ok htask
  have h₁ := h.of_spares ((closed_repoRoot hclosed _).of_exec hroot)
  obtain ⟨config, s₂, hconfig, htask⟩ := exec_bind_eq_ok htask
  have h₂ := h₁.of_spares ((hclosed.loadConfiguration host root).of_exec hconfig)
  obtain ⟨s₃, hdocument, h₃⟩ := exec_document h₂ expandSource
  rw [exec_bind_of_ok hdocument] at htask
  obtain ⟨materials, s₄, hmaterials, htask⟩ := exec_bind_eq_ok htask
  have h₄ := h₃.of_spares ((closed_gathered hclosed host o root config).of_exec hmaterials)
  rw [exec_pure, Prod.mk.injEq, Except.ok.injEq] at htask
  rw [← htask.1, ← htask.2]
  refine ⟨h₄, rfl, rfl, ?_⟩
  rintro env globals rfl
  exact ids_of_gathered hmaterials

theorem clean_of_worked {materials : Option (Expansion.Environment × Scope)} {x y : Text}
    {report : Report} (hids : ∀ env globals, materials = some (env, globals) →
      ∀ n, Region.PlainLine (env.ids n))
    (hsound : Task.Sound { target, text := x, materials } s.idsDrawn) (hx : '\r' ∉ x)
    (hclean : Region.Unmarked (Region.clean x))
    (h : (worked host target x materials).exec s = (.ok (y, report), t))
    : Region.clean (Utf8.normalizeBreaks y) = Region.clean x := by
  cases materials with
  | none =>
    obtain ⟨_, s₁, _, h⟩ := exec_bind_eq_ok h
    obtain ⟨⟨cleaned, _⟩, _, hcleaned, h⟩ := exec_bind_eq_ok h
    rw [exec_pure, Prod.mk.injEq, Except.ok.injEq, Prod.mk.injEq] at h
    have hcleaned := start_of_exec_carryOut hcleaned
    unfold Preprocess.start at hcleaned
    rw [Preprocess.exec_cleanup, Except.ok.injEq] at hcleaned
    have hreturn : '\r' ∉ Region.clean x := fun hmem => hx (Region.clean_subset x hmem)
    rw [← h.1.1, ← hcleaned, Utf8.normalizeBreaks_eq_self_iff.mpr hreturn,
      Region.clean_of_unmarked hclean]
  | some materials =>
    obtain ⟨env, globals⟩ := materials
    obtain ⟨⟨processed, _⟩, _, hprocessed, h⟩ := exec_bind_eq_ok h
    obtain ⟨_, _, _, h⟩ := exec_bind_eq_ok h
    rw [exec_pure, Prod.mk.injEq, Except.ok.injEq, Prod.mk.injEq] at h
    rw [← h.1.1]
    obtain ⟨hnames, hclosed⟩ := hsound (env, globals) rfl
    exact Preprocess.clean_normalizeBreaks_process hnames (hids env globals rfl) hx hclean hclosed
      (start_of_exec_carryOut hprocessed)

theorem clean_of_run (hids : ∀ n, Region.PlainLine (host.ids n))
    (h : Holds host o.toDocumentOptions target (Utf8.encode text) s) (hoverwrite : o.overwrite = true)
    (hsound : ∀ task t, (readTask host o).exec s = (.ok task, t) → task.Sound t.idsDrawn)
    (hclean : Region.Unmarked (Region.clean (Utf8.normalizeBreaks text)))
    (hrun : (run host (.expand o)).exec s = (.ok 0, t))
    : ∃ y, t.files.readBytes target = .ok (Utf8.encode y) ∧ Encoding.utf8.check y = .ok () ∧
        Region.clean (Utf8.normalizeBreaks y) = Region.clean (Utf8.normalizeBreaks text) := by
  cases hresult : (result host (.expand o)).exec s with
  | mk outcome u =>
    cases outcome with
    | error e =>
      obtain ⟨exit, _, hexit, hfailed⟩ := exec_run_of_error hresult
      rw [hfailed, Prod.mk.injEq] at hrun
      exact absurd hrun.1 hexit
    | ok r =>
      have hexpanded := hresult
      rw [result, expanded_eq] at hexpanded
      obtain ⟨task, s₁, htask, hexpanded⟩ := exec_bind_eq_ok hexpanded
      obtain ⟨⟨y, report⟩, _, hworked, hexpanded⟩ := exec_bind_eq_ok hexpanded
      rw [exec_pure, Prod.mk.injEq, Except.ok.injEq] at hexpanded
      obtain ⟨h₁, htarget, htext, hidsSame⟩ := exec_readTask_eq_ok h htask
      have hr : r.target = target := by rw [← hexpanded.1, ← htarget]
      have hy : r.text = y := by rw [← hexpanded.1]
      obtain ⟨t', hexec, hbytes⟩ := exec_run_of_holds (c := .expand o) h hoverwrite hresult hr
      rw [hexec, Prod.mk.injEq] at hrun
      have hplacing : placing host o.toDocumentOptions target r.text = .ok () := by
        cases hplacing : placing host o.toDocumentOptions target r.text with
        | ok _ => rfl
        | error e =>
          have hexit := hrun.1
          rw [options, hplacing] at hexit
          cases hexit
      have hcheck := check_of_placing hoverwrite hplacing
      rw [stored_of_check hcheck] at hbytes
      rw [hy] at hbytes hcheck
      rw [← hrun.2]
      refine ⟨y, hbytes, hcheck, ?_⟩
      rw [← htext] at hclean ⊢
      apply clean_of_worked _ (hsound task s₁ htask) _ hclean hworked
      . intro env globals hmaterials n
        rw [hidsSame env globals hmaterials]
        exact hids n
      . rw [htext]
        exact Utf8.cr_not_mem_normalizeBreaks text

end Expand

/-! ## Any number of runs -/

structure Invocation (target : Path) (c : CommandLine.Command) where
  host : Host
  files : FileSystem
  args : List Text
  level : Option Text
  idsDrawn : Nat
  parse : parseProgram args = .ok { logLevel := level, command := some c }
  overwrite : (options c).overwrite = true
  path : targetPath host files (options c) = .ok target
  log : LogElsewhere host files (level.getD []) (options c) target

namespace Invocation

variable {target : Path} {c : CommandLine.Command} {o : ExpandOptions} (i : Invocation target c)

def ended : Except Failure Nat × Session :=
  (runProgram i.host i.args).exec { files := i.files, idsDrawn := i.idsDrawn }

def Begins (s : Session) : Prop :=
  (setUp i.host (i.level.getD []) c i.args).exec { files := i.files, idsDrawn := i.idsDrawn }
    = (.ok (), s)

variable {i} {s : Session} {bytes : List UInt8}

theorem Begins.holds (h : i.Begins s) (hbytes : i.files.readBytes target = .ok bytes)
    : Holds i.host (options c) target bytes s := by
  have hplace := locate_target i.path hbytes
  obtain ⟨hlog, hspares⟩ := spares_setUp i.path hplace i.log h
  exact {
    path := (targetPath_eq hspares.workingDirectory).trans i.path
    bytes := hspares.readBytes hplace hbytes
    log := hlog }

theorem Begins.ended_eq (h : i.Begins s) : i.ended = (run i.host c).exec s := by
  unfold ended
  rw [runProgram_eq i.parse, exec_bind_of_ok h]

theorem begins_or_logFails (i : Invocation target c)
    : (∃ s, i.Begins s) ∨
        ∃ e, LogFails i.host i.files (i.level.getD []) (options c) e ∧ i.ended.1 = .error e := by
  obtain ⟨_, hfails⟩ := exec_setUp i.host (i.level.getD []) c i.args i.files i.idsDrawn
  cases hsetUp : (setUp i.host (i.level.getD []) c i.args).exec
      { files := i.files, idsDrawn := i.idsDrawn } with
  | mk outcome s =>
    rw [hsetUp] at hfails
    cases outcome with
    | ok _ => exact .inl ⟨s, hsetUp⟩
    | error e =>
      refine .inr ⟨e, (hfails e).mp rfl, ?_⟩
      unfold ended
      rw [runProgram_eq i.parse, exec_bind_of_error hsetUp]

def reads (i : Invocation target (.expand o)) : Except Failure Task × Session :=
  (setUp i.host (i.level.getD []) (.expand o) i.args >>= fun _ => readTask i.host o).exec
    { files := i.files, idsDrawn := i.idsDrawn }

structure Sound (i : Invocation target (.expand o)) : Prop where
  ids : ∀ n, Region.PlainLine (i.host.ids n)
  task : ∀ task, i.reads.1 = .ok task → task.Sound i.reads.2.idsDrawn

theorem Sound.of_begins {i : Invocation target (.expand o)} (h : i.Sound) (hbegins : i.Begins s)
    {task : Task} {t : Session} (htask : (readTask i.host o).exec s = (.ok task, t))
    : task.Sound t.idsDrawn := by
  have hreads : i.reads = (.ok task, t) := by
    unfold reads
    rw [exec_bind_of_ok hbegins, htask]
  have hsound := h.task task
  rw [hreads] at hsound
  exact hsound rfl

end Invocation

inductive Expands (target : Path) (bytes bytes' : List UInt8) : Prop
  | intro {o : ExpandOptions} {i : Invocation target (.expand o)} {s : Session} : i.Sound →
    i.files.readBytes target = .ok bytes → i.ended = (.ok 0, s) →
      s.files.readBytes target = .ok bytes' → Expands target bytes bytes'

section Restored

variable {target : Path} {text : Text} {bytes bytes' : List UInt8}

theorem clean_of_expands (h : Expands target (Utf8.encode text) bytes')
    (hclean : Region.Unmarked (Region.clean (Utf8.normalizeBreaks text)))
    : ∃ y, bytes' = Utf8.encode y ∧ Encoding.utf8.check y = .ok () ∧
        Region.clean (Utf8.normalizeBreaks y) = Region.clean (Utf8.normalizeBreaks text) := by
  cases h with
  | @intro o i s hsound hbytes hended hbytes' =>
    rcases i.begins_or_logFails with ⟨s₀, hbegins⟩ | ⟨e, _, he⟩
    . have hholds := hbegins.holds hbytes
      rw [hbegins.ended_eq] at hended
      obtain ⟨y, hy, hcheck, hcleaned⟩ := clean_of_run hsound.ids hholds i.overwrite
        (fun _ _ => hsound.of_begins hbegins) hclean hended
      rw [hy, Except.ok.injEq] at hbytes'
      exact ⟨y, hbytes'.symm, hcheck, hcleaned⟩
    . rw [hended] at he
      cases he

-- The induction is on the runs; what each of them keeps is the text that cleaning comes to.
theorem clean_of_transGen (hopenings : Region.openings text = [])
    (h : Relation.TransGen (Expands target) (Utf8.encode text) bytes)
    : ∃ y, bytes = Utf8.encode y ∧ Encoding.utf8.check y = .ok () ∧
        Region.clean (Utf8.normalizeBreaks y) = Utf8.normalizeBreaks text := by
  have hunmarked : Region.Unmarked (Utf8.normalizeBreaks text) :=
    Region.unmarked_normalizeBreaks (Region.openings_eq_nil_iff.mp hopenings)
  have hclean := Region.clean_of_unmarked hunmarked
  induction h with
  | single h =>
    obtain ⟨y, hy, hcheck, hcleaned⟩ := clean_of_expands h (by rw [hclean]; exact hunmarked)
    exact ⟨y, hy, hcheck, hcleaned.trans hclean⟩
  | tail _ h ih =>
    obtain ⟨x, rfl, _, hx⟩ := ih
    obtain ⟨y, hy, hcheck, hcleaned⟩ := clean_of_expands h (by rw [hx]; exact hunmarked)
    exact ⟨y, hy, hcheck, hcleaned.trans hx⟩

def announcing (host : Host) (o : DocumentOptions) (target : Path) : Except Failure Unit :=
  if o.json then .ok () else host.console.check (Output.line ("Overwrote " ++ target.toText))

theorem placing_eq_announcing {host : Host} {o : DocumentOptions} (hoverwrite : o.overwrite = true)
    (hcheck : Encoding.utf8.check text = .ok ()) (target : Path)
    : placing host o target text = announcing host o target := by
  obtain ⟨document, overwrite, json, root⟩ := o
  cases hoverwrite
  unfold placing
  rw [hcheck]
  cases json <;> rfl

theorem check_clean_normalizeBreaks (h : Encoding.utf8.check text = .ok ())
    : Encoding.utf8.check (Region.clean (Utf8.normalizeBreaks text)) = .ok () := by
  rw [Encoding.check_eq_ok_iff] at h ⊢
  intro c hc
  rcases Utf8.mem_of_mem_normalizeBreaks (Region.clean_subset _ hc) with rfl | hmem
  . exact Encoding.utf8.takes_of_ascii (by decide)
  . exact h c hmem

/-- After any number of expansions, cleaning a document brings back what was read of it first: every
byte, but a line feed for every line break with a carriage return. Only where the log cannot be set up
there is no cleaning. -/
theorem cleanup_restores (hopenings : Region.openings text = [])
    (hexpanded : Relation.TransGen (Expands target) (Utf8.encode text) bytes) {o : DocumentOptions}
    (i : Invocation target (.cleanup o)) (hbytes : i.files.readBytes target = .ok bytes)
    : (∃ s, i.ended = ((announcing i.host o target).map fun _ => 0, s) ∧
          s.files.readBytes target = .ok (Utf8.encode (Utf8.normalizeBreaks text)) ∧
          (s.files.readBytes target = .ok (Utf8.encode text) ↔ '\r' ∉ text)) ∨
        ∃ e, LogFails i.host i.files (i.level.getD []) o e ∧ i.ended.1 = .error e := by
  obtain ⟨y, rfl, hcheck, hy⟩ := clean_of_transGen hopenings hexpanded
  have hcheck := check_clean_normalizeBreaks hcheck
  rcases i.begins_or_logFails with ⟨s, hbegins⟩ | hfails
  . have hholds := hbegins.holds hbytes
    obtain ⟨r, u, hcleaned, hr, hrtext⟩ := exec_cleaned hholds
    obtain ⟨t, hrun, hrestored⟩ := exec_run_of_holds (c := .cleanup o) hholds i.overwrite hcleaned hr
    rw [hrtext, placing_eq_announcing i.overwrite hcheck] at hrun
    rw [hrtext, stored_of_check hcheck, hy] at hrestored
    refine .inl ⟨t, hbegins.ended_eq.trans hrun, hrestored, ?_⟩
    rw [hrestored, Except.ok.injEq, ← Utf8.normalizeBreaks_eq_self_iff]
    constructor
    . exact Utf8.encode_inj
    . exact congrArg Utf8.encode
  . exact .inr hfails

end Restored

end

attribute [local instance] Surrogates.lastBlock

theorem nodup_projectNames : ([[['d']], [['i']], [['i'], ['f']]] : List (List Text)).Nodup := by
  decide

def projectWith (text : Text) : FileSystem where
  tree := {
    entries := [([['d']], .file (Utf8.encode text)), ([['i']], .directory),
      ([['i'], ['f']], .file (Utf8.encode "hi"))]
    nodup := nodup_projectNames }

def projectDocument : Path where
  root := .slash
  names := [['d']]

def expanding : ExpandOptions where
  target := ['d']
  overwrite := true
  json := false
  repoRoot := none
  includesFolder := some ['i']
  variablesFile := none
  recursive := false

def expandingWords : List Text :=
  ["expand", "--overwrite", "--includes-folder", "i", "d"]

def cleaningWords : List Text :=
  ["cleanup", "--overwrite", "d"]

def sourceText : Text := "a\n<!-- include f -->\n"

def expandedText : Text :=
  "a\n<!-- include f -->" ++ Expansion.wrapped [] "f" "I" "\n  hi" ++ "\n"

theorem logElsewhere_of_plan {host : Host} {fs : FileSystem} {level level' : Text} {o : DocumentOptions}
    (h : logPlan host fs level o = .ok (level', none)) (target : Path)
    : LogElsewhere host fs level o target := by
  intro _ _ hplan
  rw [h] at hplan
  cases hplan

theorem logPlan_sourceText
    : logPlan plainHost (projectWith sourceText) [] (options (.expand expanding))
        =
      .ok ("WARNING", none) :=
  Expansion.eq_ok_of_toOption (by decide +kernel)

theorem logPlan_expandedText
    : logPlan plainHost (projectWith expandedText) [] (options cleaning)
        =
      .ok ("WARNING", none) :=
  Expansion.eq_ok_of_toOption (by decide +kernel)

def expandingSource : Invocation projectDocument (.expand expanding) where
  host := plainHost
  files := projectWith sourceText
  args := expandingWords
  level := none
  idsDrawn := 0
  parse := rfl
  overwrite := rfl
  path := rfl
  log := logElsewhere_of_plan logPlan_sourceText _

def cleaningExpanded : Invocation projectDocument cleaning where
  host := plainHost
  files := projectWith expandedText
  args := cleaningWords
  level := none
  idsDrawn := 0
  parse := rfl
  overwrite := rfl
  path := rfl
  log := logElsewhere_of_plan logPlan_expandedText _

theorem plainLine_letter : Region.PlainLine ['I'] :=
  ⟨by decide, by decide, by decide⟩

theorem sound_expandingSource : expandingSource.Sound where
  ids _ := plainLine_letter
  task := by decide +kernel

theorem readBytes_projectWith (text : Text)
    : (projectWith text).readBytes projectDocument = .ok (Utf8.encode text) := by rfl

theorem ended_of_entries {ended : Except Failure Nat × Session} {fs : FileSystem}
    (h : (ended.1.toOption, ended.2.files.tree.entries, ended.2.files.workingDirectory)
      = (some 0, fs.tree.entries, fs.workingDirectory))
    : ∃ s, ended = (.ok 0, s) ∧ s.files = fs := by
  rw [Prod.mk.injEq, Prod.mk.injEq] at h
  refine ⟨ended.2, Expansion.eq_of_toOption h.1, ?_⟩
  generalize ended.2.files = files at h
  cases files
  cases fs
  rw [FileSystem.mk.injEq]
  exact ⟨OrderedMap.ext h.2.1, h.2.2⟩

theorem cleanup_restores_sourceText
    : ∃ s t,
        (runProgram plainHost expandingWords).exec { files := projectWith sourceText } = (.ok 0, s) ∧
        (runProgram plainHost cleaningWords).exec { files := s.files } = (.ok 0, t) ∧
        t.files.readBytes projectDocument = .ok (Utf8.encode sourceText) := by
  have hopenings : Region.openings sourceText = [] := by decide +kernel
  obtain ⟨s, hexpand, hs⟩ : ∃ s, expandingSource.ended = (.ok 0, s) ∧
      s.files = projectWith expandedText :=
    ended_of_entries (by decide +kernel)
  have hbytes : s.files.readBytes projectDocument = .ok (Utf8.encode expandedText) := by
    rw [hs]
    exact readBytes_projectWith expandedText
  have hexpanded : Expands projectDocument (Utf8.encode sourceText) (Utf8.encode expandedText) :=
    .intro sound_expandingSource (readBytes_projectWith sourceText) hexpand hbytes
  rcases cleanup_restores hopenings (.single hexpanded) cleaningExpanded
    (readBytes_projectWith expandedText) with ⟨t, hclean, _, hrestored⟩ | ⟨e, hfails, _⟩
  . refine ⟨s, t, hexpand, ?_, hrestored.mpr (by decide)⟩
    rw [hs]
    exact hclean
  . cases hfails with
    | plan hplan => cases logPlan_expandedText.symm.trans hplan
    | file hplan => cases logPlan_expandedText.symm.trans hplan

def returnsText : Text := "a\r\n<!-- include f -->\r\n"

theorem cleanup_loses_returns
    : Region.openings returnsText = [] ∧
        ∃ s t,
          (runProgram plainHost expandingWords).exec { files := projectWith returnsText } = (.ok 0, s) ∧
          (runProgram plainHost cleaningWords).exec { files := s.files } = (.ok 0, t) ∧
          t.files.readBytes projectDocument = .ok (Utf8.encode sourceText) ∧
          t.files.readBytes projectDocument ≠ .ok (Utf8.encode returnsText) := by
  obtain ⟨s, hexpand, hs⟩ : ∃ s, (runProgram plainHost expandingWords).exec
      { files := projectWith returnsText } = (.ok 0, s) ∧ s.files = projectWith expandedText :=
    ended_of_entries (by decide +kernel)
  obtain ⟨t, hclean, ht⟩ : ∃ t, (runProgram plainHost cleaningWords).exec
      { files := projectWith expandedText } = (.ok 0, t) ∧ t.files = projectWith sourceText :=
    ended_of_entries (by decide +kernel)
  rw [← hs] at hclean
  refine ⟨by decide +kernel, s, t, hexpand, hclean, ?_, ?_⟩
  all_goals
    rw [ht, readBytes_projectWith]
  rw [ne_eq, Except.ok.injEq]
  intro hsame
  exact absurd (Utf8.encode_inj hsame) (by decide)

end Command
end Transclusion
