import Transclusion.Preprocess
import Transclusion.Proofs.Expansion.Document
import Transclusion.Proofs.Expansion.Replay

/-!
This module contains how cleaning and expanding belong together: cleaning takes a processed document
back to what was expanded, so that processing can be repeated (`process_reversible`).
-/

namespace Transclusion
namespace Preprocess

open Expansion

def cleanedProgress (text : Text) (p : Progress) : Progress :=
  ((cleanup text).exec p).2

theorem exec_cleanup (text : Text) (p : Progress)
    : (cleanup text).exec p = (.ok (Region.clean text), cleanedProgress text p) := by rfl

theorem exec_processed {env : Environment} {globals : Scope} {text : Text} {p q : Progress}
    {outcome : Except Failure Expanded}
    (h : (expanded env false globals (Region.clean text)).exec (cleanedProgress text p) = (outcome, q))
    : ∃ log, (processed env globals text).exec p = (outcome, { q with log }) := by
  unfold processed
  rw [Run.exec_bind_of_ok (exec_cleanup text p), Run.exec_bind, h]
  cases outcome with
  | error e => exact ⟨q.log, rfl⟩
  | ok e => exact ⟨_, rfl⟩

theorem exec_process (env : Environment) (globals : Scope) (text : Text) (p : Progress)
    : (process env globals text).exec p
        =
      (((processed env globals text).exec p).1.map Expanded.text,
        ((processed env globals text).exec p).2) := by
  unfold process
  rw [Run.exec_bind]
  cases (processed env globals text).exec p with
  | mk outcome q => cases outcome <;> rfl

theorem process_outcome (env : Environment) (globals : Scope) (text : Text) (p : Progress)
    : ((process env globals text).exec p).1
        =
      ((expanded env false globals (Region.clean text)).exec (cleanedProgress text p)).1.map
        Expanded.text := by
  cases h : (expanded env false globals (Region.clean text)).exec (cleanedProgress text p) with
  | mk outcome q =>
    obtain ⟨log, hlog⟩ := exec_processed h
    rw [exec_process, hlog]

theorem process_report (env : Environment) (globals : Scope) (text : Text) (p : Progress)
    : ((process env globals text).exec p).2.report
        =
      ((expanded env false globals (Region.clean text)).exec (cleanedProgress text p)).2.report := by
  cases h : (expanded env false globals (Region.clean text)).exec (cleanedProgress text p) with
  | mk outcome q =>
    obtain ⟨log, hlog⟩ := exec_processed h
    rw [exec_process, hlog]

theorem regionsRemoved_process (env : Environment) (globals : Scope) (text : Text) (p : Progress)
    : ((process env globals text).exec p).2.report.regionsRemoved
        =
      p.report.regionsRemoved + (Region.regions text).length := by
  rw [process_report, expanded_sameRemoved env false globals _ _]
  rfl

theorem cleanable_of_made {env : Environment} {d : Directive} {block : Block}
    (hnames : ∀ name ∈ env.library.index.keys, Region.Plain name)
    (hids : ∀ n, Region.Plain (env.ids n)) (hindent : ∀ c ∈ d.indent, Text.isIndent c = true)
    (hmade : MadeFor env d block) (hclosed : block.ClosedOnce) : block.Cleanable := by
  rcases hmade with rfl | ⟨name, n, body, rfl, _, hname⟩
  . trivial
  . exact ⟨hindent, hnames name hname, hids n, hclosed⟩

theorem exists_expanded {env : Environment} {globals : Scope} {text : Text} {p : Progress} {e : Expanded}
    (h : ((processed env globals text).exec p).1 = .ok e)
    : ∃ q, (expanded env false globals (Region.clean text)).exec (cleanedProgress text p) = (.ok e, q) ∧
        ((process env globals text).exec p).1 = .ok e.text ∧
        ((process env globals text).exec p).2.report = q.report := by
  cases hrun : (expanded env false globals (Region.clean text)).exec (cleanedProgress text p) with
  | mk outcome q =>
    obtain ⟨log, hlog⟩ := exec_processed hrun
    rw [hlog] at h
    dsimp only at h
    refine ⟨q, ?_, ?_, ?_⟩
    . rw [h]
    . rw [process_outcome, hrun, h]
      rfl
    . rw [process_report, hrun]

theorem length_regions (e : Expanded) : e.regions.length = (marks e.pieces).length := by
  unfold Expanded.regions
  rw [← map_blockRegions 0, List.length_map]

theorem map_id_regions (e : Expanded) : e.regions.map (·.id) = (marks e.pieces).map Prod.snd := by
  unfold Expanded.regions
  rw [← map_blockRegions 0, List.map_map]
  rfl

-- Processing begins by cleaning, and after that only the number of the next id matters.
theorem process_eq_of_clean_eq {env : Environment} {globals : Scope} {x y : Text}
    (h : Region.clean x = Region.clean y) (p : Progress)
    : ((process env globals x).exec p).1 = ((process env globals y).exec p).1 := by
  rw [process_outcome, process_outcome, h]
  congr 1
  apply expanded_eq_of_sameDrawn
  rfl

/-- Cleaning takes a processed document back to the text that was expanded. It finds exactly the
regions that were inserted, and processing the document again is processing that text. -/
theorem process_reversible {env : Environment} {globals : Scope} {x document : Text} {drawn : Nat}
    {e : Expanded} (hnames : ∀ name ∈ env.library.index.keys, Region.Plain name)
    (hids : ∀ n, Region.Plain (env.ids n)) (hclean : Region.openings (Region.clean x) = [])
    (hrun : (start document drawn (processed env globals x)).1 = .ok e)
    (hclosed : ∀ piece ∈ e.pieces, piece.block.ClosedOnce)
    : (start document drawn (process env globals x)).1 = .ok e.text ∧
      e.source = Region.clean x ∧
      Region.clean e.text = Region.clean x ∧
      Region.regions e.text = e.regions ∧
      e.regions.length = (start document drawn (process env globals x)).2.report.regionsInserted ∧
      e.regions.map (·.id) = (List.range' drawn e.regions.length).map env.ids ∧
      (∀ piece ∈ e.pieces, MadeFor env piece.directive piece.block) ∧
      ∀ (ids : Nat → Text) (document' : Text) (drawn' : Nat), ∃ text,
        (start document' drawn' (process (env.withIds ids) globals e.text)).1 = .ok text ∧
        (start document' drawn' (process (env.withIds ids) globals (Region.clean x))).1 = .ok text ∧
        (start document' drawn' (process (env.withIds ids) globals e.text)).2.report.regionsRemoved
          = (start document drawn (process env globals x)).2.report.regionsInserted := by
  obtain ⟨q, hexpanded, hprocess, hreport⟩ := exists_expanded hrun
  obtain ⟨hsource, hinserts, hindent⟩ := expanded_inserts hexpanded
  have hunmarked : Region.Unmarked e.source := by
    rw [hsource]
    exact Region.openings_eq_nil_iff.mp hclean
  obtain ⟨hregions, hcleaned⟩ := clean_text (fun piece hpiece => cleanable_of_made hnames hids
    (hindent piece hpiece) (hinserts.made piece hpiece) (hclosed piece hpiece)) hunmarked
  rw [hsource] at hcleaned
  have hinserted : e.regions.length
      = (start document drawn (process env globals x)).2.report.regionsInserted := by
    unfold start
    rw [hreport, hinserts.regionsInserted, length_regions]
    exact (Nat.zero_add _).symm
  refine ⟨hprocess, hsource, hcleaned, hregions, hinserted, ?_, hinserts.made, ?_⟩
  . rw [map_id_regions, hinserts.ids, length_regions]
    rfl
  . intro ids document' drawn'
    have hagain : Region.clean (Region.clean x) = Region.clean x := by
      apply Region.clean_of_regions_eq_nil
      unfold Region.regions Region.survey
      rw [hclean]
      rfl
    obtain ⟨e', he', _⟩ := exists_expanded_withIds hexpanded ids
      (cleanedProgress (Region.clean x) { report := { document := document' }, idsDrawn := drawn' })
    have hother : (start document' drawn' (process (env.withIds ids) globals (Region.clean x))).1
        = .ok e'.text := by
      unfold start
      rw [process_outcome, hagain, he']
      rfl
    refine ⟨e'.text, ?_, hother, ?_⟩
    . rw [← hother]
      apply process_eq_of_clean_eq
      rw [hcleaned, hagain]
    . rw [← hinserted, ← hregions]
      unfold start
      rw [regionsRemoved_process]
      exact Nat.zero_add _

def singleFile : Environment where
  library := {
    index := .ofEntries [(['a'], { root := .none, names := [['a']] })]
    read := fun _ => .ok ['h', 'i']
    readVariables := fun _ => .ok ∅ }
  ids n := List.replicate (n + 1) 'I'

def includingDocument : Text := "x\n <!-- include a -->\ny"

def includingExpanded : Expanded where
  pieces := [{
    before := "x\n "
    directive := { indent := " ", parameters := "include a " }
    block := .region " " "a" "I" "\n   hi" }]
  rest := "\ny"

theorem process_reversible_singleFile
    : Region.clean includingExpanded.text = includingDocument ∧
      Region.regions includingExpanded.text
        = [{ name := ['a'], id := ['I'], start := 21, stop := 85 }] := by
  have hnames : ∀ name ∈ singleFile.library.index.keys, Region.Plain name := by decide +kernel
  have hids : ∀ n, Region.Plain (singleFile.ids n) := by
    intro n
    constructor <;> simp [singleFile]
  have hclean : Region.openings (Region.clean includingDocument) = [] := by decide +kernel
  have hrun : (start [] 0 (processed singleFile ∅ includingDocument)).1 = .ok includingExpanded :=
    eq_ok_of_toOption (by decide +kernel)
  have hclosed : ∀ piece ∈ includingExpanded.pieces, piece.block.ClosedOnce := by decide +kernel
  obtain ⟨_, _, hcleaned, hregions, _⟩ := process_reversible hnames hids hclean hrun hclosed
  refine ⟨hcleaned.trans ?_, hregions.trans ?_⟩
  . decide +kernel
  . decide +kernel

end Preprocess
end Transclusion
