import Transclusion.Proofs.Region.Layout

/-!
This module contains documents that were edited around their generated regions. As long as no opening
marker begins in the texts between the regions, cleaning takes out exactly the regions and the line
feeds before them, and leaves all the rest as it is (`clean_document`).
-/

namespace Transclusion
namespace Region

structure Written where
  before : Text
  indent : Text
  name : Text
  id : Text
  body : Text
  outdent : Text
  openings_before : openings before = []
  isIndent_indent : ∀ c ∈ indent, Text.isIndent c = true
  plain_name : Plain name
  plain_id : Plain id
  closed_once : ¬ closingMarker name id <:+: ['\n'] ++ body ++ ['\n'] ++ outdent

namespace Written

def block (w : Written) : Text :=
  ['\n'] ++ w.indent ++ openingMarker w.name w.id ++ ['\n'] ++ w.body ++ ['\n'] ++ w.outdent ++
    closingMarker w.name w.id ++ ['\n']

def generated (w : Written) : Generated where
  before := w.before
  indent := w.indent
  name := w.name
  id := w.id
  inside := ['\n'] ++ w.body ++ ['\n'] ++ w.outdent
  unmarked := openings_eq_nil_iff.mp w.openings_before
  isIndent := w.isIndent_indent
  plain_name := w.plain_name
  plain_id := w.plain_id
  closed_once := w.closed_once

theorem regionText_generated (w : Written)
    : regionText w.generated.indent w.generated.name w.generated.id w.generated.inside = w.block := by
  unfold regionText generated block
  simp only [List.append_assoc, List.cons_append, List.nil_append]

theorem text_generated (w : Written) : w.generated.text = w.before ++ w.block := by
  unfold Generated.text
  rw [regionText_generated]
  rfl

end Written

def document (ws : List Written) (last : Text) : Text :=
  ws.flatMap (fun w => w.before ++ w.block) ++ last

theorem document_eq_layout (ws : List Written) (last : Text)
    : document ws last = layout (ws.map Written.generated) last := by
  unfold document layout
  rw [List.flatMap_map]
  simp only [Written.text_generated]

theorem kept_append (g : Generated)
    : g.kept ++ (g.before.rtakeWhile (· == '\n') ++ regionText g.indent g.name g.id g.inside)
        =
      g.text := by
  have hbefore : g.kept ++ g.before.rtakeWhile (· == '\n') = g.before := by
    unfold Generated.kept List.rdropWhile List.rtakeWhile
    rw [← List.reverse_append, List.takeWhile_append_dropWhile, List.reverse_reverse]
  rw [← List.append_assoc, hbefore]
  rfl

-- What is taken out of a document is, region by region, what cleaning does not keep.
theorem slice_spans (gs : List Generated) (lead last : Text)
    : (spans lead.length gs).map (fun r => Text.slice (lead ++ layout gs last) r.start r.stop)
        =
      gs.map (fun g =>
        g.before.rtakeWhile (· == '\n') ++ regionText g.indent g.name g.id g.inside) := by
  induction gs generalizing lead with
  | nil => rfl
  | cons g gs ih =>
    have hlayout : lead ++ layout (g :: gs) last = lead ++ g.text ++ layout gs last := by
      simp [layout]
    have hlead : lead.length + g.text.length = (lead ++ g.text).length := by
      rw [List.length_append]
    rw [spans, List.map_cons, List.map_cons, hlayout, hlead, ih]
    congr 1
    rw [← kept_append]
    unfold Text.slice
    simp only [List.length_append, List.append_assoc, Nat.add_sub_add_left, Nat.add_sub_cancel_left]
    rw [← List.append_assoc lead, List.drop_left' (by rw [List.length_append]),
      ← List.append_assoc, List.take_left' (by rw [List.length_append])]

theorem map_spans (gs : List Generated) (offset : Nat)
    : (spans offset gs).map (fun r => (r.name, r.id)) = gs.map (fun g => (g.name, g.id)) := by
  induction gs generalizing offset with
  | nil => rfl
  | cons g gs ih => rw [spans, List.map_cons, List.map_cons, ih]

/-- Whatever is written around the regions of a document survives its cleaning, but for the line feeds
before a region. All the regions are taken out, one after the other, and nothing else. -/
theorem clean_document (ws : List Written) {last : Text} (h : openings last = [])
    : clean (document ws last) = ws.flatMap (·.before.rdropWhile (· == '\n')) ++ last ∧
        (regions (document ws last)).map (fun r => (r.name, r.id)) = ws.map (fun w => (w.name, w.id)) ∧
        (regions (document ws last)).map (fun r => Text.slice (document ws last) r.start r.stop)
          = ws.map (fun w => w.before.rtakeWhile (· == '\n') ++ w.block) := by
  rw [openings_eq_nil_iff] at h
  rw [document_eq_layout, clean_layout _ h, regions_layout _ h, map_spans]
  refine ⟨?_, ?_, ?_⟩
  . rw [List.flatMap_map]
    rfl
  . rw [List.map_map]
    rfl
  . have := slice_spans (ws.map Written.generated) [] last
    rw [List.nil_append, List.length_nil] at this
    rw [this, List.map_map]
    apply List.map_congr_left
    intro w _
    rw [Function.comp_apply, Written.regionText_generated]
    rfl

theorem isIndent_tab : ∀ c ∈ ['\t'], Text.isIndent c = true := by
  simp [Text.isIndent]

theorem plain_letter : Plain ['a'] := by decide

theorem plain_digit : Plain ['1'] := by decide

theorem not_closed_noted
    : ¬ closingMarker ['a'] ['1'] <:+:
        ['\n'] ++ "<!-- included \"b\" \"2\" -->".toList ++ ['\n'] ++ [' '] := by
  decide +kernel

def noted (before : Text) (h : openings before = []) : Written where
  before
  indent := ['\t']
  name := ['a']
  id := ['1']
  body := "<!-- included \"b\" \"2\" -->"
  outdent := [' ']
  openings_before := h
  isIndent_indent := isIndent_tab
  plain_name := plain_letter
  plain_id := plain_digit
  closed_once := not_closed_noted

theorem clean_document_noted
    : clean (document [noted "x <!-- included \"\n\n" (by decide +kernel), noted [] (by decide +kernel),
          noted "\" y" (by decide +kernel)] "\n\"z\" -->")
        = "x <!-- included \"\" y\n\"z\" -->" := by
  rw [(clean_document _ (by decide +kernel)).1]
  decide +kernel

end Region
end Transclusion
