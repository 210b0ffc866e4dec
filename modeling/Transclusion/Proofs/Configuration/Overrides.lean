import Mathlib.Data.Bool.AllAny
import Transclusion.Configuration.Loading
import Transclusion.Proofs.Configuration.Assignment
import Transclusion.Proofs.Configuration.Names
import Transclusion.Proofs.Json.Whole
import Transclusion.Proofs.Scope

/-!
This module contains what environment variables do to a configuration: their settings win, and nothing
else changes (`load_overrides`), as long as no mapping of the configuration stands at two places.
-/

namespace Transclusion
namespace Configuration

open Text

/-! ## The settings in order -/

abbrev Setting := Text × List Text × Text

def settings (environment : Scope) : List Setting :=
  (environment.entries.mergeSort fun a b => le a.1 b.1).filterMap fun (name, text) =>
    (settingPath? name).map (name, ·, text)

theorem mem_settings_iff {environment : Scope} {name text : Text} {path : List Text}
    : (name, path, text) ∈ settings environment ↔
        environment.get? name = some text ∧ settingPath? name = some path := by
  rw [settings, List.mem_filterMap, ← OrderedMap.mem_entries_iff]
  constructor
  . rintro ⟨⟨name', text'⟩, hmem, heq⟩
    obtain ⟨path', hpath, heq⟩ := Option.map_eq_some_iff.mp heq
    cases heq
    exact ⟨List.mem_mergeSort.mp hmem, hpath⟩
  . intro ⟨hmem, hpath⟩
    refine ⟨(name, text), List.mem_mergeSort.mpr hmem, ?_⟩
    dsimp only
    rw [hpath, Option.map_some]

theorem pairwise_settings (environment : Scope)
    : (settings environment).Pairwise fun a b => le a.1 b.1 = true ∧ a.1 ≠ b.1 := by
  have hsorted : (environment.entries.mergeSort fun a b => le a.1 b.1).Pairwise
      fun a b => le a.1 b.1 = true :=
    List.pairwise_mergeSort (fun a b c => le_trans a.1 b.1 c.1) (fun a b => le_total a.1 b.1) _
  have hnodup : (environment.entries.mergeSort fun a b => le a.1 b.1).Pairwise fun a b => a.1 ≠ b.1 := by
    rw [← List.pairwise_map]
    exact ((List.mergeSort_perm _ _).map Prod.fst).nodup_iff.mpr environment.nodup
  apply (hsorted.and hnodup).filterMap
  rintro ⟨name, text⟩ ⟨name', text'⟩ h a ha b hb
  obtain ⟨path, -, rfl⟩ := Option.map_eq_some_iff.mp ha
  obtain ⟨path', -, rfl⟩ := Option.map_eq_some_iff.mp hb
  exact h

theorem settings_congr {environment environment' : Scope}
    (h : ∀ name, (settingPath? name).isSome → environment'.get? name = environment.get? name)
    : settings environment' = settings environment := by
  have hnodup : ∀ environment : Scope, (settings environment).Nodup := by
    intro environment
    apply (pairwise_settings environment).imp
    intro a b hab heq
    exact hab.2 (congrArg Prod.fst heq)
  apply List.Perm.eq_of_pairwise ?_ (pairwise_settings environment') (pairwise_settings environment)
  . rw [List.perm_ext_iff_of_nodup (hnodup _) (hnodup _)]
    intro ⟨name, path, text⟩
    rw [mem_settings_iff, mem_settings_iff]
    apply and_congr_left
    intro hpath
    rw [h name (Option.isSome_of_eq_some hpath)]
  . intro a b _ _ hab hba
    exact absurd (le_antisymm hab.1 hba.1) hab.2

def PlainNames (environment : Scope) : Prop :=
  ∀ name text, environment.get? name = some text → variableLead <+: name → name.IsUpper

theorem PlainNames.isUpper {environment : Scope} (h : PlainNames environment) {name text : Text}
    {path : List Text}
    (hname : environment.get? name = some text) (hpath : settingPath? name = some path)
    : name.IsUpper := by
  apply h name text hname
  obtain ⟨rest, rfl, -⟩ := settingPath?_eq_some_iff.mp hpath
  exact List.prefix_append _ rest

section Assigning

variable [Surrogates]

/-! ## Assigning them -/

def assignAll (settings : List Setting) (config : Document) : Except Failure Document :=
  settings.foldlM (fun config (_, path, text) => assign config path <$> coerce text) config

theorem assignAll_cons (name text : Text) (path : List Text) (rest : List Setting) (config : Document)
    : assignAll ((name, path, text) :: rest) config
        =
      coerce text >>= fun v => assignAll rest (assign config path v) := by
  rw [assignAll, List.foldlM_cons]
  dsimp only
  cases coerce text <;> rfl

theorem outcome_override (environment : Scope) (config : Document) (log : List Log.Record)
    : ((override environment config).run.run log).1 = assignAll (settings environment) config := by
  unfold override overrides settings
  dsimp only
  generalize environment.entries.mergeSort _ = entries
  induction entries generalizing config log with
  | nil => rfl
  | cons entry entries ih =>
    obtain ⟨name, text⟩ := entry
    rw [List.filterMap_cons, List.filterMap_cons]
    dsimp only
    cases hrest : variableLead.isPrefixOf? name with
    | none =>
      have hpath : settingPath? name = none := by
        rw [settingPath?, hrest, Option.bind_none]
      rw [hpath]
      exact ih config log
    | some rest =>
      have hpath : settingPath? name = overridePath? rest := by
        rw [settingPath?, hrest, Option.bind_some]
      rw [hpath, Option.map_some]
      dsimp only
      rw [List.foldlM_cons]
      dsimp only
      cases overridePath? rest with
      | none => exact ih config _
      | some path =>
        rw [Option.map_some]
        dsimp only
        rw [assignAll_cons]
        cases coerce text with
        | error e => rfl
        | ok value => exact ih _ log

theorem outcome_load (fs : FileSystem) (root : Path) (environment : Scope)
    : ((load fs root environment).run.run []).1
        =
      ((projectLayers fs root).run.run []).1 >>= assignAll (settings environment) := by
  change ((ExceptT.bindCont (override environment) ((projectLayers fs root).run.run []).1).run
    ((projectLayers fs root).run.run []).2).1 = _
  cases (projectLayers fs root).run.run [] with
  | mk outcome log =>
    cases outcome with
    | error e => rfl
    | ok config => exact outcome_override environment config log

def Diverges (path other : List Text) : Prop :=
  ¬ path <+: other ∧ ¬ other <+: path

instance (path other : List Text) : Decidable (Diverges path other) :=
  inferInstanceAs (Decidable (_ ∧ _))

variable {config after : Document} {entries : List (Value × Value)}

theorem exists_assignAll_iff {list : List Setting}
    : (∃ after, assignAll list config = .ok after) ↔ ∀ s ∈ list, ∃ v, coerce s.2.2 = .ok v := by
  induction list generalizing config with
  | nil =>
    rw [iff_true_right fun s hs => nomatch hs]
    exact ⟨config, rfl⟩
  | cons s list ih =>
    obtain ⟨name, path, text⟩ := s
    rw [assignAll_cons, List.forall_mem_cons]
    cases coerce text with
    | error e => simp [bind, Except.bind]
    | ok value => simp [bind, Except.bind, ih]

theorem unshared_assignAll {list : List Setting} (h : Unshared config entries)
    (hrun : assignAll list config = .ok after)
    : ∃ entries', Unshared after entries' ∧
        ∀ path, (∀ s ∈ list, Diverges s.2.1 path) →
          (Value.map entries').at? path = (Value.map entries).at? path := by
  induction list generalizing config entries with
  | nil =>
    cases hrun
    exact ⟨entries, h, fun _ _ => rfl⟩
  | cons s list ih =>
    obtain ⟨name, path, text⟩ := s
    rw [assignAll_cons] at hrun
    obtain ⟨v, hv, hrun⟩ := exists_of_bind_eq_ok hrun
    obtain ⟨entries', h', hframe⟩ := ih (unshared_assign h (whole_coerce hv) path) hrun
    refine ⟨entries', h', ?_⟩
    intro other hother
    rw [List.forall_mem_cons] at hother
    rw [hframe other hother.2, at?_assignAt_of_diverges v hother.1.1 hother.1.2]

theorem assignAll_wins {earlier later : List Setting} {name text : Text} {path : List Text}
    (h : Unshared config entries)
    (hrun : assignAll (earlier ++ (name, path, text) :: later) config = .ok after)
    (hpath : path ≠ []) (hlater : ∀ s ∈ later, Diverges s.2.1 path)
    : ∃ v, coerce text = .ok v ∧ (after.at? path).map Document.unfold = some v := by
  rw [assignAll, List.foldlM_append] at hrun
  obtain ⟨between, hbetween, hrun⟩ := exists_of_bind_eq_ok hrun
  obtain ⟨entries₁, h₁, -⟩ := unshared_assignAll h hbetween
  change assignAll _ between = _ at hrun
  rw [assignAll_cons] at hrun
  obtain ⟨v, hv, hrun⟩ := exists_of_bind_eq_ok hrun
  obtain ⟨entries₂, h₂, hframe⟩ := unshared_assignAll (unshared_assign h₁ (whole_coerce hv) path) hrun
  refine ⟨v, hv, ?_⟩
  rw [h₂.map_unfold_at?, hframe path hlater, at?_assignAt_self v hpath]

/-- The environment's settings win, and nothing else is different from before. -/
structure Overridden (environment : Scope) (before after : Document) : Prop where
  wins : ∀ name text path, environment.get? name = some text → settingPath? name = some path →
    (∀ other text' path', environment.get? other = some text' → settingPath? other = some path' →
      path <+: path' → path = path') →
    ∃ v, coerce text = .ok v ∧ (after.at? path).map Document.unfold = some v
  frame : ∀ path, (∀ name text path', environment.get? name = some text → settingPath? name = some path' →
    Diverges path' path) →
    (after.at? path).map Document.unfold = (before.at? path).map Document.unfold

theorem overridden_of_assignAll {environment : Scope} (h : Unshared config entries)
    (hnames : PlainNames environment) (hrun : assignAll (settings environment) config = .ok after)
    : Overridden environment config after where
  wins name text path hname hpath hlongest := by
    obtain ⟨earlier, later, hsettings⟩ := List.append_of_mem (mem_settings_iff.mpr ⟨hname, hpath⟩)
    have hsorted := pairwise_settings environment
    rw [hsettings] at hrun hsorted
    apply assignAll_wins h hrun (path_ne_nil hpath)
    intro ⟨other, path', text'⟩ hlater
    have hother := mem_settings_iff.mp
      (hsettings ▸ List.mem_append_right _ (List.mem_cons_of_mem _ hlater))
    have hle := (List.pairwise_cons.mp (List.pairwise_append.mp hsorted).2.1).1 _ hlater
    -- A variable for a part of the path would have come before.
    have hnot : ¬ path' <+: path := by
      intro hbegins
      have hle' := le_of_path_prefix hother.2 hpath (hnames.isUpper hother.1 hother.2)
        (hnames.isUpper hname hpath) hbegins
      exact hle.2 (le_antisymm hle.1 hle')
    refine ⟨hnot, ?_⟩
    intro hbegins
    have heq := hlongest other text' path' hother.1 hother.2 hbegins
    exact hnot (heq ▸ List.prefix_rfl)
  frame path hpath := by
    obtain ⟨entries', h', hframe⟩ := unshared_assignAll h hrun
    rw [h'.map_unfold_at?, h.map_unfold_at?]
    apply hframe
    intro ⟨name, path', text⟩ hmem
    obtain ⟨hname, hpath'⟩ := mem_settings_iff.mp hmem
    exact hpath name text path' hname hpath'

/-- Loading with an environment, given the configuration without it. It succeeds if the text of every
setting can be read, the settings win, and variables that lead to no setting do not count. -/
theorem load_overrides {fs : FileSystem} {root : Path} {before : Document} {environment : Scope}
    (hbefore : ((projectLayers fs root).run.run []).1 = .ok before) (hunshared : Unshared before entries)
    (hnames : PlainNames environment)
    : ((∃ after, ((load fs root environment).run.run []).1 = .ok after) ↔
          ∀ name text, environment.get? name = some text → (settingPath? name).isSome →
            ∃ v, coerce text = .ok v) ∧
        (∀ after, ((load fs root environment).run.run []).1 = .ok after →
          Overridden environment before after) ∧
        ∀ environment' : Scope,
          (∀ name, (settingPath? name).isSome → environment'.get? name = environment.get? name) →
          ((load fs root environment').run.run []).1 = ((load fs root environment).run.run []).1 := by
  have hload : ∀ environment, ((load fs root environment).run.run []).1
      = assignAll (settings environment) before := by
    intro environment
    rw [outcome_load, hbefore]
    rfl
  refine ⟨?_, ?_, ?_⟩
  . rw [hload, exists_assignAll_iff]
    constructor
    . intro h name text hname hpath
      obtain ⟨path, hpath⟩ := Option.isSome_iff_exists.mp hpath
      exact h (name, path, text) (mem_settings_iff.mpr ⟨hname, hpath⟩)
    . intro h ⟨name, path, text⟩ hmem
      obtain ⟨hname, hpath⟩ := mem_settings_iff.mp hmem
      exact h name text hname (Option.isSome_of_eq_some hpath)
  . intro after hafter
    rw [hload] at hafter
    exact overridden_of_assignAll hunshared hnames hafter
  . intro environment' hsame
    rw [hload, hload, settings_congr hsame]

end Assigning

theorem unshared_hold {entries : List (Value × Value)} (h : (Value.map entries).Whole)
    : Unshared (Document.hold { value := .map entries }) entries := by
  refine ⟨∅, fun n hn => hn.elim, (shows_hold h fun n hn => hn.elim).transfer ?_ fun _ _ => rfl⟩
  exact fun n hn => ⟨hn.2, fun h => h⟩

attribute [local instance] Surrogates.lastBlock

theorem nodup_nestedSettings
    : (([("POWERUPS_A__B__C", "x"), ("POWERUPS_A____B", "y"), ("POWERUPS_A__B", "7")] :
    List (Text × Text)).map Prod.fst).Nodup := by decide

def nestedSettings : Scope where
  entries := [("POWERUPS_A__B__C", "x"), ("POWERUPS_A____B", "y"), ("POWERUPS_A__B", "7")]
  nodup := nodup_nestedSettings

theorem load_overrides_nested
    : ∃ after, ((load {} { root := .slash, names := [] } nestedSettings).run.run []).1 = .ok after ∧
        (after.at? ["a", "b", "c"]).map Document.unfold = some (.text "x") := by
  have hnames : PlainNames nestedSettings := by
    intro name text hname _
    have hall : ∀ entry ∈ nestedSettings.entries,
        entry.1.all fun c => decide (c.toNat < 128 ∧ c.isLower = false) := by decide
    exact List.all_iff_forall_prop.mp (hall (name, text) (OrderedMap.mem_entries_iff.mpr hname))
  have hread : ∀ entry ∈ nestedSettings.entries, (coerce entry.2).toOption.isSome := by decide
  have hlongest : ∀ entry ∈ nestedSettings.entries, ∀ path' ∈ settingPath? entry.1,
      (["a", "b", "c"] : List Text) <+: path' → (["a", "b", "c"] : List Text) = path' := by decide +kernel
  have hbefore : ((projectLayers {} { root := .slash, names := [] }).run.run []).1
      = .ok (Document.hold defaults) := by rfl
  obtain ⟨hloads, hafter, -⟩ := load_overrides hbefore (unshared_hold fun _ => rfl) hnames
  obtain ⟨after, hload⟩ : ∃ after,
      ((load {} { root := .slash, names := [] } nestedSettings).run.run []).1 = .ok after := by
    apply hloads.mpr
    intro name text hname _
    have hsome := hread (name, text) (OrderedMap.mem_entries_iff.mpr hname)
    cases hvalue : coerce text with
    | error e =>
      rw [hvalue] at hsome
      cases hsome
    | ok value => exact ⟨value, rfl⟩
  have hwins := (hafter after hload).wins "POWERUPS_A__B__C" "x" ["a", "b", "c"] rfl (by decide)
  obtain ⟨v, hv, hat⟩ := hwins fun other text path' hother hpath' =>
    hlongest (other, text) (OrderedMap.mem_entries_iff.mpr hother) path' hpath'
  cases hv
  exact ⟨after, hload, hat⟩

/-! ## A mapping at two places -/

theorem nodup_aliasedProject : ([([".powerups.yaml".toList],
    Entry.file (Utf8.encode "a: &x \x7bk: 1\x7d\nb: *x\n"))].map Prod.fst).Nodup :=
  List.pairwise_singleton _ _

def aliasedProject : FileSystem where
  tree := {
    entries := [([".powerups.yaml".toList], .file (Utf8.encode "a: &x \x7bk: 1\x7d\nb: *x\n"))]
    nodup := nodup_aliasedProject }

theorem nodup_oneSetting : ([("POWERUPS_A__K".toList, "2".toList)].map Prod.fst).Nodup :=
  List.pairwise_singleton _ _

def oneSetting : Scope where
  entries := [("POWERUPS_A__K", "2")]
  nodup := nodup_oneSetting

theorem load_changes_alias
    : ∃ before after, ((projectLayers aliasedProject aliasedProject.workingDirectory).run.run []).1 = .ok before ∧
        ((load aliasedProject aliasedProject.workingDirectory oneSetting).run.run []).1 = .ok after ∧ PlainNames oneSetting ∧
        ¬ Overridden oneSetting before after := by
  have hbefore : (((projectLayers aliasedProject aliasedProject.workingDirectory).run.run []).1.toOption.bind fun d =>
      ((d.at? ["b", "k"]).map Document.unfold).bind Value.integer?) = some 1 := by decide +kernel
  have hafter : (((load aliasedProject aliasedProject.workingDirectory oneSetting).run.run []).1.toOption.bind fun d =>
      ((d.at? ["b", "k"]).map Document.unfold).bind Value.integer?) = some 2 := by decide +kernel
  have hplain : Text.IsUpper "POWERUPS_A__K" := List.all_iff_forall_prop.mp (by decide)
  have hpath : ∀ path ∈ settingPath? "POWERUPS_A__K", Diverges path ["b", "k"] := by
    decide +kernel
  cases hb : ((projectLayers aliasedProject aliasedProject.workingDirectory).run.run []).1 with
  | error e =>
    rw [hb] at hbefore
    cases hbefore
  | ok before =>
    cases ha : ((load aliasedProject aliasedProject.workingDirectory oneSetting).run.run []).1 with
    | error e =>
      rw [ha] at hafter
      cases hafter
    | ok after =>
      rw [hb] at hbefore
      rw [ha] at hafter
      have hentry : ∀ name text, oneSetting.get? name = some text → name = "POWERUPS_A__K".toList := by
        intro name text hname
        have hmem := OrderedMap.mem_entries_iff.mpr hname
        exact (Prod.mk.inj (List.mem_singleton.mp hmem)).1
      refine ⟨before, after, rfl, rfl, ?_, ?_⟩
      . intro name text hname _
        rw [hentry name text hname]
        exact hplain
      . intro h
        have hframe := h.frame ["b", "k"] fun name text path' hname hpath' =>
          hpath path' (hentry name text hname ▸ hpath')
        change ((after.at? _).map _).bind _ = _ at hafter
        rw [hframe] at hafter
        exact absurd (hbefore.symm.trans hafter) (by decide)

end Configuration
end Transclusion
