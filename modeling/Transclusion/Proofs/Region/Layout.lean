import Mathlib.Data.List.DropRight
import Transclusion.Proofs.Region.Scan

/-!
This module contains documents that are laid out from generated regions and the texts between them:
cleaning finds exactly these regions (`survey_layout`) and leaves the texts between them without
their trailing line feeds (`clean_layout`).
-/

namespace Transclusion
namespace Region

structure Generated where
  before : Text
  indent : Text
  name : Text
  id : Text
  inside : Text
  unmarked : Unmarked before
  isIndent : ∀ c ∈ indent, Text.isIndent c = true
  plain_name : Plain name
  plain_id : Plain id
  closed_once : ¬ closingMarker name id <:+: inside

namespace Generated

def text (g : Generated) : Text :=
  g.before ++ regionText g.indent g.name g.id g.inside

def kept (g : Generated) : Text :=
  g.before.rdropWhile (· == '\n')

end Generated

def layout (gs : List Generated) (last : Text) : Text :=
  gs.flatMap Generated.text ++ last

def spans (offset : Nat) : List Generated → List Region
  | [] => []
  | g :: gs =>
    { name := g.name
      id := g.id
      start := offset + g.kept.length
      stop := offset + g.text.length } :: spans (offset + g.text.length) gs

theorem margin_newline (m : Nat × Nat)
    : margin m '\n' = (if m.2 = 0 then m.1 + 1 else 1, 0) := by rfl

theorem margin_margin_newline_of_ne {c : Char} (hc : c ≠ '\n') (m : Nat × Nat)
    : (margin (margin m c) '\n').1 = 1 := by
  rw [margin_newline]
  unfold margin
  split
  . rfl
  . rfl

-- The line feeds at the end of a text are counted, and those of the region before it with them if
-- there is nothing else.
theorem min_margin_newline (x : Text) (m : Nat × Nat)
    : min (margin (x.foldl margin m) '\n').1 (x.length + 1) = (x.rtakeWhile (· == '\n')).length + 1 := by
  induction x using List.reverseRecOn with
  | nil =>
    rw [List.foldl_nil, margin_newline, List.rtakeWhile_nil]
    dsimp only [List.length_nil]
    split <;> omega
  | append_singleton x c ih =>
    rw [List.foldl_append, List.foldl_cons, List.foldl_nil, List.rtakeWhile_concat,
      List.length_append, List.length_singleton]
    by_cases hc : c = '\n'
    . rw [hc, if_pos (beq_self_eq_true _), List.length_append, List.length_singleton, ← ih,
        margin_newline (margin _ _)]
      rw [if_pos (by rfl)]
      dsimp only
      omega
    . rw [margin_margin_newline_of_ne hc, if_neg (by simpa using hc), List.length_nil]
      omega

theorem length_kept (g : Generated)
    : g.kept.length + (g.before.rtakeWhile (· == '\n')).length = g.before.length := by
  unfold Generated.kept List.rdropWhile List.rtakeWhile
  rw [List.length_reverse, List.length_reverse, Nat.add_comm, ← List.length_append,
    List.takeWhile_append_dropWhile, List.length_reverse]

theorem findings_go_layout (gs : List Generated) {last : Text} (h : Unmarked last) (m : Nat × Nat)
    (offset : Nat)
    : findings offset (openings.go 0 m.1 m.2 offset (layout gs last))
        =
      (spans offset gs).map Finding.region := by
  induction gs generalizing m offset with
  | nil =>
    rw [layout, List.flatMap_nil, List.nil_append, go_of_unmarked h]
    rfl
  | cons g gs ih =>
    have hlayout : layout (g :: gs) last
        = g.before ++ (regionText g.indent g.name g.id g.inside ++ layout gs last) := by
      simp [layout, Generated.text]
    have hmargin := min_margin_newline g.before m
    have hkept := length_kept g
    rw [hlayout, findings_go_region m g.unmarked g.isIndent g.plain_name g.plain_id g.closed_once
      (Nat.le_refl _)]
    rw [ih (1, 0), spans, List.map_cons]
    congr 3
    omega

theorem survey_layout (gs : List Generated) {last : Text} (h : Unmarked last)
    : survey (layout gs last) = (spans 0 gs).map Finding.region :=
  findings_go_layout gs h (0, 0) 0

theorem regions_layout (gs : List Generated) {last : Text} (h : Unmarked last)
    : regions (layout gs last) = spans 0 gs := by
  unfold regions
  rw [survey_layout gs h, List.filterMap_map]
  exact List.filterMap_some

theorem cut_spans (gs : List Generated) (last : Text) (offset : Nat)
    : cut offset (layout gs last) (spans offset gs) = gs.flatMap Generated.kept ++ last := by
  induction gs generalizing offset with
  | nil => simp [layout, spans, cut]
  | cons g gs ih =>
    have hlayout : layout (g :: gs) last = g.text ++ layout gs last := by
      simp [layout]
    have hkept : g.kept <+: g.text ++ layout gs last := by
      unfold Generated.text
      rw [List.append_assoc]
      exact List.IsPrefix.trans (List.rdropWhile_prefix _ _) (List.prefix_append ..)
    rw [spans, cut, hlayout, Nat.add_sub_cancel_left, Nat.add_sub_cancel_left, List.drop_left, ih,
      List.flatMap_cons, List.append_assoc]
    congr 1
    exact (List.prefix_iff_eq_take.mp hkept).symm

theorem clean_layout (gs : List Generated) {last : Text} (h : Unmarked last)
    : clean (layout gs last) = gs.flatMap Generated.kept ++ last := by
  unfold clean
  rw [regions_layout gs h, cut_spans]

end Region
end Transclusion
