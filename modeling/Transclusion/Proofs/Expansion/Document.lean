import Transclusion.Proofs.Expansion.Progress
import Transclusion.Proofs.Expansion.Resolve
import Transclusion.Proofs.Region.Layout

/-!
This module contains what a document looks like after its expansion: it is the document with one block
after every directive that is not skipped (`expanded_inserts`), and cleaning takes out exactly these
blocks again (`clean_text`, `regions_text`).
-/

namespace Transclusion

theorem isIndent_of_mem_indentOf {reversed : Text} {c : Char} (h : c ∈ Outline.indentOf reversed)
    : Text.isIndent c = true := by
  unfold Outline.indentOf at h
  rw [List.mem_reverse] at h
  exact List.mem_takeWhile_imp h

theorem exists_parametersAt?_of_mem_go {skip : Nat} {before text : Text} {piece : Text × Directive}
    (h : piece ∈ (Outline.ofText.go skip before text).pieces)
    : (∃ reversed, piece.2.indent = Outline.indentOf reversed) ∧
        ∃ later, Directive.parametersAt? later = some piece.2.parameters := by
  induction text generalizing skip before with
  | nil => cases skip <;> simp [Outline.ofText.go] at h
  | cons c text ih =>
    cases skip with
    | succ skip =>
      rw [Outline.ofText.go] at h
      exact ih h
    | zero =>
      rw [Outline.ofText.go] at h
      split at h
      next parameters hparameters =>
        cases List.mem_cons.mp h with
        | inl h =>
          rw [h]
          exact ⟨⟨before, rfl⟩, c :: text, hparameters⟩
        | inr h => exact ih h
      next => exact ih h

theorem isIndent_of_mem_ofText {text : Text} {piece : Text × Directive}
    (h : piece ∈ (Outline.ofText text).pieces)
    : ∀ c ∈ piece.2.indent, Text.isIndent c = true := by
  obtain ⟨⟨reversed, hindent⟩, _⟩ := exists_parametersAt?_of_mem_go h
  intro c hc
  rw [hindent] at hc
  exact isIndent_of_mem_indentOf hc

theorem Directive.text_eq_concat (d : Directive) : ∃ t, d.text = t ++ ['>'] := by
  have hend : commentEnd = ['-', '-'] ++ ['>'] := by rfl
  refine ⟨commentLead ++ d.parameters ++ ['-', '-'], ?_⟩
  unfold Directive.text
  rw [hend]
  simp only [List.append_assoc]

namespace Expansion

def Piece.source (piece : Piece) : Text :=
  piece.before ++ piece.directive.text

def Piece.text (piece : Piece) : Text :=
  piece.before ++ piece.directive.text ++ piece.block.text

def Expanded.source (e : Expanded) : Text :=
  e.pieces.flatMap Piece.source ++ e.rest

def blockRegions (offset : Nat) : List Piece → List Region
  | [] => []
  | piece :: pieces =>
    let start := offset + piece.source.length
    let stop := start + piece.block.text.length
    match piece.block with
    | .region _ name id _ => { name, id, start, stop } :: blockRegions stop pieces
    | _ => blockRegions stop pieces

def Expanded.regions (e : Expanded) : List Region :=
  blockRegions 0 e.pieces

def insideMarkers (indent body : Text) : Text :=
  ['\n'] ++ body ++ ['\n'] ++ indent

def Block.ClosedOnce : Block → Prop
  | .region indent name id body => ¬ Region.closingMarker name id <:+: insideMarkers indent body
  | _ => True

instance (b : Block) : Decidable b.ClosedOnce :=
  match b with
  | .skipped => .isTrue trivial
  | .nested _ => .isTrue trivial
  | .region indent name id body =>
    inferInstanceAs (Decidable (¬ Region.closingMarker name id <:+: insideMarkers indent body))

def Block.Cleanable : Block → Prop
  | .skipped => True
  | .nested _ => False
  | .region indent name id body =>
    (∀ c ∈ indent, Text.isIndent c = true) ∧ Region.Plain name ∧ Region.Plain id ∧
      ¬ Region.closingMarker name id <:+: insideMarkers indent body

theorem wrapped_eq (indent name id body : Text)
    : wrapped indent name id body = Region.regionText indent name id (insideMarkers indent body) := by
  unfold wrapped Region.regionText insideMarkers
  simp only [List.append_assoc, List.cons_append, List.nil_append]

theorem rdropWhile_source (pending : Text) (piece : Piece)
    : (pending ++ piece.source).rdropWhile (· == '\n') = pending ++ piece.source := by
  obtain ⟨t, ht⟩ := piece.directive.text_eq_concat
  unfold Piece.source
  rw [ht, ← List.append_assoc, ← List.append_assoc]
  exact List.rdropWhile_concat_neg _ _ _ (by decide)

theorem exists_generated {pending indent name id body : Text} {piece : Piece}
    (hblock : piece.block = .region indent name id body) (hcleanable : piece.block.Cleanable)
    (hunmarked : Region.Unmarked (pending ++ piece.source))
    : ∃ g : Region.Generated, g.text = pending ++ piece.text ∧ g.kept = pending ++ piece.source ∧
        g.name = name ∧ g.id = id := by
  rw [hblock] at hcleanable
  obtain ⟨hindent, hname, hid, hclosed⟩ := hcleanable
  refine ⟨{
    before := pending ++ piece.source
    indent
    name
    id
    inside := insideMarkers indent body
    unmarked := hunmarked
    isIndent := hindent
    plain_name := hname
    plain_id := hid
    closed_once := hclosed }, ?_, rdropWhile_source pending piece, rfl, rfl⟩
  unfold Region.Generated.text Piece.text Piece.source
  rw [hblock, Block.text, wrapped_eq]
  simp only [List.append_assoc]

-- A skipped directive only adds to the text before the next region.
theorem exists_layout {pieces : List Piece} {rest : Text} (pending : Text) (offset : Nat)
    (hcleanable : ∀ piece ∈ pieces, piece.block.Cleanable)
    (hunmarked : Region.Unmarked (pending ++ (pieces.flatMap Piece.source ++ rest)))
    : ∃ gs last, Region.Unmarked last ∧
        Region.layout gs last = pending ++ (pieces.flatMap Piece.text ++ rest) ∧
        gs.flatMap Region.Generated.kept ++ last = pending ++ (pieces.flatMap Piece.source ++ rest) ∧
        Region.spans offset gs = blockRegions (offset + pending.length) pieces := by
  induction pieces generalizing pending offset with
  | nil => exact ⟨[], pending ++ rest, hunmarked, rfl, rfl, rfl⟩
  | cons piece pieces ih =>
    have ih := fun pending offset => ih pending offset
      fun other hother => hcleanable other (by simp [hother])
    have hpiece := hcleanable piece (by simp)
    rw [List.flatMap_cons, List.append_assoc, ← List.append_assoc] at hunmarked
    cases hblock : piece.block with
    | nested body =>
      rw [hblock] at hpiece
      exact hpiece.elim
    | skipped =>
      obtain ⟨gs, last, hlast, htext, hsource, hspans⟩ := ih (pending ++ piece.source) offset hunmarked
      refine ⟨gs, last, hlast, ?_, ?_, ?_⟩
      . rw [htext]
        simp [Piece.text, Piece.source, hblock, Block.text]
      . rw [hsource]
        simp
      . rw [hspans, blockRegions, hblock]
        simp [Block.text, Nat.add_assoc]
    | region indent name id body =>
      obtain ⟨g, hgtext, hkept, hname, hid⟩ := exists_generated hblock hpiece
        (hunmarked.of_infix (List.infix_append [] _ _))
      obtain ⟨gs, last, hlast, htext, hsource, hspans⟩ := ih [] (offset + g.text.length)
        (hunmarked.of_infix (List.suffix_append _ _).isInfix)
      refine ⟨g :: gs, last, hlast, ?_, ?_, ?_⟩
      . unfold Region.layout at *
        rw [List.flatMap_cons, List.append_assoc, htext, hgtext]
        simp
      . rw [List.flatMap_cons, List.append_assoc, hsource, hkept]
        simp
      . rw [Region.spans, hspans, blockRegions, hblock, hgtext, hkept, hname, hid]
        simp [Piece.text, Piece.source, hblock, Nat.add_assoc]

theorem clean_text {e : Expanded} (hcleanable : ∀ piece ∈ e.pieces, piece.block.Cleanable)
    (hunmarked : Region.Unmarked e.source)
    : Region.regions e.text = e.regions ∧ Region.clean e.text = e.source := by
  obtain ⟨gs, last, hlast, htext, hsource, hspans⟩ := exists_layout [] 0 hcleanable hunmarked
  have htext : e.text = Region.layout gs last := htext.symm
  rw [htext, Region.regions_layout gs hlast, Region.clean_layout gs hlast]
  exact ⟨hspans, hsource⟩

def Block.mark? : Block → Option (Text × Text)
  | .region _ name id _ => some (name, id)
  | _ => none

def marks (pieces : List Piece) : List (Text × Text) :=
  pieces.filterMap (·.block.mark?)

theorem map_blockRegions (offset : Nat) (pieces : List Piece)
    : (blockRegions offset pieces).map (fun r => (r.name, r.id)) = marks pieces := by
  induction pieces generalizing offset with
  | nil => rfl
  | cons piece pieces ih =>
    unfold blockRegions marks
    rw [List.filterMap_cons]
    cases piece.block with
    | region indent name id body =>
      dsimp only [Block.mark?]
      rw [List.map_cons, ih]
      rfl
    | _ => exact ih _

def MadeFor (env : Environment) (d : Directive) (block : Block) : Prop :=
  block = .skipped ∨ ∃ name n body, block = .region d.indent name (env.ids n) body ∧
    (Parameters.parse d.parameters).name = some name ∧ name ∈ env.library.index.keys

structure Inserts (env : Environment) (pieces : List Piece) (p q : Progress) : Prop where
  made : ∀ piece ∈ pieces, MadeFor env piece.directive piece.block
  ids : (marks pieces).map Prod.snd = (List.range' p.idsDrawn (marks pieces).length).map env.ids
  idsDrawn : q.idsDrawn = p.idsDrawn + (marks pieces).length
  regionsInserted : q.report.regionsInserted = p.report.regionsInserted + (marks pieces).length

theorem Inserts.append {env : Environment} {a b : List Piece} {p q s : Progress}
    (h : Inserts env a p q) (h' : Inserts env b q s) : Inserts env (a ++ b) p s := by
  have hmarks : marks (a ++ b) = marks a ++ marks b := List.filterMap_append
  constructor
  . intro piece hpiece
    cases List.mem_append.mp hpiece with
    | inl hpiece => exact h.made piece hpiece
    | inr hpiece => exact h'.made piece hpiece
  . rw [hmarks, List.map_append, List.length_append, h.ids, h'.ids, h.idsDrawn, ← List.map_append,
      List.range'_append_1]
  . rw [hmarks, List.length_append, h'.idsDrawn, h.idsDrawn, Nat.add_assoc]
  . rw [hmarks, List.length_append, h'.regionsInserted, h.regionsInserted, Nat.add_assoc]

theorem mem_keys_of_get?_eq_some {index : SourceIndex} {name : Text} {path : Path}
    (h : index.get? name = some path) : name ∈ index.keys := by
  obtain ⟨before, after, hentries, _⟩ := List.lookup_eq_some_iff.mp h
  unfold OrderedMap.keys
  rw [hentries]
  simp

theorem exec_mapM_cons_eq_ok {env : Environment} {expander : Expander} {nested : Bool} {scope : Scope}
    {piece : Text × Directive} {pieces : List (Text × Directive)} {done : List Piece} {p q : Progress}
    (h : ((piece :: pieces).mapM (expandPiece env expander nested scope)).exec p = (.ok done, q))
    : ∃ block p' later, (expandDirective env expander nested scope piece.2).exec p = (.ok block, p') ∧
        (pieces.mapM (expandPiece env expander nested scope)).exec p' = (.ok later, q) ∧
        done = { before := piece.1, directive := piece.2, block } :: later := by
  rw [List.mapM_cons] at h
  obtain ⟨first, p', hfirst, h⟩ := Run.exec_bind_eq_ok h
  obtain ⟨later, p'', hlater, h⟩ := Run.exec_bind_eq_ok h
  obtain ⟨block, _, hblock, hfirst⟩ := Run.exec_bind_eq_ok hfirst
  rw [Run.exec_pure, Prod.mk.injEq, Except.ok.injEq] at h hfirst
  rw [hfirst.2] at hblock
  rw [h.2] at hlater
  refine ⟨block, p', later, hblock, hlater, ?_⟩
  rw [← h.1, ← hfirst.1]

theorem outline_of_mapM {env : Environment} {expander : Expander} {nested : Bool} {scope : Scope}
    {pieces : List (Text × Directive)} {done : List Piece} {p q : Progress}
    (h : (pieces.mapM (expandPiece env expander nested scope)).exec p = (.ok done, q))
    : done.map (fun piece => (piece.before, piece.directive)) = pieces := by
  induction pieces generalizing done p q with
  | nil =>
    rw [List.mapM_nil, Run.exec_pure, Prod.mk.injEq, Except.ok.injEq] at h
    rw [← h.1]
    rfl
  | cons piece pieces ih =>
    obtain ⟨block, p', later, _, hlater, rfl⟩ := exec_mapM_cons_eq_ok h
    rw [List.map_cons, ih hlater]

theorem source_of_outline {text : Text} {done : List Piece}
    (h : done.map (fun piece => (piece.before, piece.directive)) = (Outline.ofText text).pieces)
    : Expanded.source { pieces := done, rest := (Outline.ofText text).rest } = text := by
  have htext := Outline.toText_ofText text
  unfold Outline.toText at htext
  rw [← h, List.flatMap_map] at htext
  exact htext

section Inserts

variable {env : Environment} {expander : Expander} {scope : Scope}
  (hexpander : ∀ i, (expander i).Moves SameRegions)

include hexpander

theorem inserts_expandDirective {d : Directive} {block : Block} {before : Text} {p q : Progress}
    (h : (expandDirective env expander false scope d).exec p = (.ok block, q))
    : Inserts env [{ before, directive := d, block }] p q := by
  obtain ⟨target, p', htarget, h⟩ := Run.exec_bind_eq_ok h
  have hsame : SameRegions p p' :=
    (admits_sameRegions.closed.resolve env.library scope d).of_exec htarget
  cases target with
  | none =>
    rw [expandTarget, Run.exec_pure, Prod.mk.injEq, Except.ok.injEq] at h
    rw [← h.1, ← h.2]
    refine ⟨?_, rfl, hsame.idsDrawn, hsame.regionsInserted⟩
    intro piece hpiece
    rw [List.mem_singleton.mp hpiece]
    exact .inl rfl
  | some i =>
    have hi := includes_of_resolve htarget
    obtain ⟨content, p'', hcontent, h⟩ := Run.exec_bind_eq_ok h
    have hsame' : SameRegions p p'' :=
      admits_sameRegions.trans _ _ _ hsame ((hexpander i).of_exec hcontent)
    unfold insertContent at h
    dsimp only at h
    rw [if_neg (by decide), Run.exec_bind_of_ok (exec_drawId ..),
      Run.exec_bind_of_ok (exec_updateReport ..), Run.exec_pure, Prod.mk.injEq, Except.ok.injEq] at h
    rw [← h.1, ← h.2]
    refine ⟨?_, ?_, ?_, ?_⟩
    . intro piece hpiece
      rw [List.mem_singleton.mp hpiece]
      exact .inr ⟨_, _, _, rfl, hi.name, mem_keys_of_get?_eq_some hi.path⟩
    . rw [← hsame'.idsDrawn]
      rfl
    . rw [← hsame'.idsDrawn]
      rfl
    . rw [← hsame'.regionsInserted]
      rfl

theorem inserts_mapM {pieces : List (Text × Directive)} {done : List Piece} {p q : Progress}
    (h : (pieces.mapM (expandPiece env expander false scope)).exec p = (.ok done, q))
    : Inserts env done p q := by
  induction pieces generalizing done p q with
  | nil =>
    rw [List.mapM_nil, Run.exec_pure, Prod.mk.injEq, Except.ok.injEq] at h
    rw [← h.1, ← h.2]
    exact ⟨by simp, rfl, rfl, rfl⟩
  | cons piece pieces ih =>
    obtain ⟨block, p', later, hblock, hlater, rfl⟩ := exec_mapM_cons_eq_ok h
    exact (inserts_expandDirective hexpander hblock).append (ih hlater)

end Inserts

theorem outline_of_expanded {env : Environment} {nested : Bool} {scope : Scope} {text : Text}
    {e : Expanded} {p q : Progress} (h : (expanded env nested scope text).exec p = (.ok e, q))
    : e.pieces.map (fun piece => (piece.before, piece.directive)) = (Outline.ofText text).pieces := by
  obtain ⟨pieces, p', hpieces, h⟩ := Run.exec_bind_eq_ok h
  rw [Run.exec_pure, Prod.mk.injEq, Except.ok.injEq] at h
  rw [← h.1]
  exact outline_of_mapM hpieces

theorem mem_ofText_of_expanded {env : Environment} {nested : Bool} {scope : Scope} {text : Text}
    {e : Expanded} {p q : Progress} (h : (expanded env nested scope text).exec p = (.ok e, q))
    {piece : Piece} (hpiece : piece ∈ e.pieces)
    : (piece.before, piece.directive) ∈ (Outline.ofText text).pieces := by
  rw [← outline_of_expanded h]
  exact List.mem_map_of_mem hpiece

theorem expanded_inserts {env : Environment} {scope : Scope} {text : Text} {e : Expanded}
    {p q : Progress} (h : (expanded env false scope text).exec p = (.ok e, q))
    : e.source = text ∧ Inserts env e.pieces p q ∧
        ∀ piece ∈ e.pieces, ∀ c ∈ piece.directive.indent, Text.isIndent c = true := by
  have hpiece := @mem_ofText_of_expanded env false scope text e p q h
  obtain ⟨pieces, p', hpieces, h⟩ := Run.exec_bind_eq_ok h
  rw [Run.exec_pure, Prod.mk.injEq, Except.ok.injEq] at h
  rw [← h.1, ← h.2]
  refine ⟨?_, inserts_mapM (content_sameRegions env env.settings.levels []) hpieces, ?_⟩
  . exact source_of_outline (outline_of_mapM hpieces)
  . intro piece hmem
    rw [← h.1] at hpiece
    exact isIndent_of_mem_ofText (hpiece hmem)

end Expansion
end Transclusion
