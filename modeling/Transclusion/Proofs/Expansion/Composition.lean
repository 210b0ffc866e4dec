import Transclusion.Proofs.Expansion.Below
import Transclusion.Proofs.Expansion.Chain
import Transclusion.Proofs.Expansion.Document
import Transclusion.Proofs.Expansion.Lines

/-!
This module contains how the expansion of a text is put together: it is the text with one block right
after each directive that is not skipped, and the block comes from the expansion of the included file
as a text of its own, with one level less (`expand_composes`).
-/

namespace Transclusion
namespace Expansion

def separately (env : Environment) (room : Nat) (scope : Scope) (file : Text) : Except Failure Text :=
  ((expand (env.below room) true scope file).exec {}).1

def blockText (env : Environment) (nested : Bool) (d : Directive) (name id content : Text) : Text :=
  let body := indented (d.indent ++ env.settings.nestingIndent) content
  if nested then body else wrapped d.indent name id body

/-- What is inserted after a directive when `n` ids are in use, and how many are in use then. -/
inductive BlockOf (env : Environment) (room : Nat) (nested : Bool) (scope : Scope) (n : Nat)
    (d : Directive) : Text → Nat → Prop
  | skipped : Skips env.library d → BlockOf env room nested scope n d [] n
  | inserted {i : Inclusion} {file content : Text} :
    Includes env.library scope d i → substituted env i = .ok file →
      separately env room i.scope file = .ok content →
        BlockOf env room nested scope n d (blockText env nested d i.name (env.ids n) content)
          (if nested then n else n + 1)

inductive Blocks (env : Environment) (room : Nat) (nested : Bool) (scope : Scope) :
    Nat → List Directive → List Text → Nat → Prop
  | nil (n : Nat) : Blocks env room nested scope n [] [] n
  | cons {n n' n'' : Nat} {d : Directive} {ds : List Directive} {block : Text} {blocks : List Text} :
    BlockOf env room nested scope n d block n' → Blocks env room nested scope n' ds blocks n'' →
      Blocks env room nested scope n (d :: ds) (block :: blocks) n''

def insertAfter (text : Text) : Nat → List (Located × Text) → Text
  | cursor, [] => text.drop cursor
  | cursor, (l, block) :: later =>
    Text.slice text cursor l.stop ++ block ++ insertAfter text l.stop later

theorem insertAfter_locate (lead : Text) (pieces : List Piece) (rest : Text)
    : insertAfter (lead ++ Expanded.source { pieces, rest }) lead.length
          ((locate lead.length (pieces.map fun piece => (piece.before, piece.directive))).zip
            (pieces.map (·.block.text)))
        =
      Expanded.text { pieces, rest } := by
  induction pieces generalizing lead with
  | nil => simp [insertAfter, locate, Expanded.source, Expanded.text]
  | cons piece pieces ih =>
    have hsource : Expanded.source { pieces := piece :: pieces, rest }
        = piece.source ++ Expanded.source { pieces, rest } := by
      simp [Expanded.source]
    have hstop : lead.length + piece.before.length + piece.directive.text.length
        = (lead ++ piece.source).length := by
      simp [Piece.source, Nat.add_assoc]
    have hslice : ∀ later, Text.slice (lead ++ (piece.source ++ later)) lead.length
        (lead ++ piece.source).length = piece.source := by
      intro later
      simp [Text.slice]
    have ih := ih (lead ++ piece.source)
    rw [List.append_assoc] at ih
    rw [hsource, List.map_cons, List.map_cons, locate, List.zip_cons_cons, insertAfter]
    dsimp only
    rw [hstop, hslice, ih]
    simp [Expanded.text, Piece.source]

/-! ## One directive -/

theorem exec_insertContent (env : Environment) (nested : Bool) (d : Directive) (name content : Text)
    (p : Progress)
    : ∃ block q, (insertContent env nested d name content).exec p = (.ok block, q) ∧
        block.text = blockText env nested d name (env.ids p.idsDrawn) content ∧
        q.idsDrawn = if nested then p.idsDrawn else p.idsDrawn + 1 := by
  unfold insertContent blockText
  cases nested with
  | true => exact ⟨_, _, rfl, rfl, rfl⟩
  | false => exact ⟨_, _, rfl, rfl, rfl⟩

section Directive

variable {env : Environment} {scope : Scope} {d : Directive}

theorem exec_resolve {library : Library} {found : Option Inclusion}
    (h : target library scope d = .ok found) (p : Progress)
    : ∃ q, (resolve library scope d).exec p = (.ok found, q) ∧ q.idsDrawn = p.idsDrawn := by
  have houtcome := resolve_outcome library scope d p
  have hsame := admits_sameRegions.closed.resolve library scope d p
  cases hrun : (resolve library scope d).exec p with
  | mk outcome q =>
    rw [hrun] at houtcome hsame
    refine ⟨q, ?_, hsame.idsDrawn⟩
    rw [← h, ← houtcome]

theorem exec_expandDirective_of_skips (expander : Expander) (nested : Bool) (scope : Scope)
    (h : Skips env.library d) (p : Progress)
    : ∃ q, (expandDirective env expander nested scope d).exec p = (.ok .skipped, q) ∧
        q.idsDrawn = p.idsDrawn := by
  obtain ⟨q, hresolve, hdrawn⟩ := exec_resolve (target_eq_none_iff.mpr h) p
  refine ⟨q, ?_, hdrawn⟩
  unfold expandDirective
  rw [Run.exec_bind_of_ok hresolve]
  rfl

theorem exec_expandDirective_of_includes {expander : Expander}
    (hexpander : ∀ i, (expander i).Moves SameRegions) (nested : Bool) {i : Inclusion}
    (hi : Includes env.library scope d i) (p : Progress)
    : ∃ p', p'.idsDrawn = p.idsDrawn ∧
        match ((expander i).exec p').1 with
        | .error e => ((expandDirective env expander nested scope d).exec p).1 = .error e
        | .ok content =>
          ∃ block q, (expandDirective env expander nested scope d).exec p = (.ok block, q) ∧
            block.text = blockText env nested d i.name (env.ids p.idsDrawn) content ∧
            q.idsDrawn = if nested then p.idsDrawn else p.idsDrawn + 1 := by
  obtain ⟨p', hresolve, hdrawn⟩ := exec_resolve (target_eq_some_iff.mpr hi) p
  refine ⟨p', hdrawn, ?_⟩
  have hsame := hexpander i p'
  unfold expandDirective
  rw [Run.exec_bind_of_ok hresolve]
  unfold expandTarget
  dsimp only
  rw [Run.exec_bind]
  cases hcontent : (expander i).exec p' with
  | mk outcome q =>
    rw [hcontent] at hsame
    cases outcome with
    | error e => rfl
    | ok content =>
      rw [← hdrawn, ← hsame.idsDrawn]
      exact exec_insertContent env nested d i.name content q

end Directive

/-! ## The file of a directive -/

section Content

variable {env : Environment} {room : Nat} {i : Inclusion}

theorem separately_of_content (hroom : env.settings.nestingLimit ≤ room + 1) {text : Text}
    {p : Progress} (h : ((content env env.settings.levels [] i).exec p).1 = .ok text)
    : ∃ file, substituted env i = .ok file ∧ separately env room i.scope file = .ok text := by
  have hbelow : env.settings.levels ≤ (env.below room).settings.levels + 1 := by
    unfold Settings.levels Environment.below
    dsimp only
    omega
  cases hlevels : env.settings.levels with
  | zero =>
    rw [hlevels] at h
    simp [content, Run.exec_throw] at h
  | succ levels =>
    rw [hlevels] at h
    cases hfile : substituted env i with
    | error e =>
      unfold content expandFile at h
      rw [Run.exec_bind_of_ok (exec_updateReport ..), Run.exec_bind, Run.exec_ofExcept, hfile] at h
      simp at h
    | ok file =>
      refine ⟨file, rfl, ?_⟩
      have hle : levels ≤ (env.below room).settings.levels := by omega
      exact (content_answers room False.elim hfile hle False.elim p {}).eq_ok h

theorem outcome_content (hsteady : env.library.Steady)
    (hlevels : env.settings.levels = (env.below room).settings.levels + 1) {file : Text}
    (hfile : substituted env i = .ok file) (p : Progress)
    : ((content env env.settings.levels [] i).exec p).1
        =
      (separately env room i.scope file).mapError (·.below i.name env.settings.maxDepth) := by
  rw [hlevels]
  exact (content_answers room (fun _ => hsteady) hfile (Nat.le_refl _) (fun _ => rfl) p {}).lifted

end Content

section Run

variable {env : Environment} {room : Nat} {nested : Bool} {scope : Scope}

theorem blockOf_expandDirective (hroom : env.settings.nestingLimit ≤ room + 1) {d : Directive}
    {block : Block} {p q : Progress}
    (h : (expandDirective env (content env env.settings.levels []) nested scope d).exec p
      = (.ok block, q))
    : BlockOf env room nested scope p.idsDrawn d block.text q.idsDrawn := by
  obtain ⟨found, _, hfound, _⟩ := Run.exec_bind_eq_ok h
  have htarget : target env.library scope d = .ok found := by
    rw [← resolve_outcome env.library scope d p, hfound]
  cases found with
  | none =>
    have hskips := target_eq_none_iff.mp htarget
    obtain ⟨q', hexec, hdrawn⟩ := exec_expandDirective_of_skips _ nested scope hskips p
    rw [h, Prod.mk.injEq, Except.ok.injEq] at hexec
    rw [hexec.1, hexec.2, hdrawn]
    exact .skipped hskips
  | some i =>
    have hi := target_eq_some_iff.mp htarget
    obtain ⟨p', _, hrun⟩ := exec_expandDirective_of_includes
      (content_sameRegions env env.settings.levels []) nested hi p
    cases hcontent : ((content env env.settings.levels [] i).exec p').1 with
    | error e =>
      rw [hcontent, h] at hrun
      simp at hrun
    | ok content =>
      rw [hcontent] at hrun
      obtain ⟨block', q', hexec, htext, hdrawn⟩ := hrun
      rw [h, Prod.mk.injEq, Except.ok.injEq] at hexec
      obtain ⟨file, hfile, hseparately⟩ := separately_of_content hroom hcontent
      rw [hexec.1, hexec.2, htext, hdrawn]
      exact .inserted hi hfile hseparately

-- The progress is generalised: the ids of the later blocks depend on how many the earlier ones have
-- drawn.
theorem blocks_mapM (hroom : env.settings.nestingLimit ≤ room + 1) {pieces : List (Text × Directive)}
    {done : List Piece} {p q : Progress}
    (h : (pieces.mapM (expandPiece env (content env env.settings.levels []) nested scope)).exec p
      = (.ok done, q))
    : Blocks env room nested scope p.idsDrawn (pieces.map Prod.snd) (done.map (·.block.text))
        q.idsDrawn := by
  induction pieces generalizing done p q with
  | nil =>
    rw [List.mapM_nil, Run.exec_pure, Prod.mk.injEq, Except.ok.injEq] at h
    rw [← h.1, ← h.2]
    exact .nil _
  | cons piece pieces ih =>
    obtain ⟨block, p', later, hblock, hlater, rfl⟩ := exec_mapM_cons_eq_ok h
    exact .cons (blockOf_expandDirective hroom hblock) (ih hlater)

theorem exec_mapM_cons {expander : Expander} {piece : Text × Directive}
    {pieces : List (Text × Directive)} {block : Block} {done : List Piece} {p p' q : Progress}
    (hfirst : (expandDirective env expander nested scope piece.2).exec p = (.ok block, p'))
    (hlater : (pieces.mapM (expandPiece env expander nested scope)).exec p' = (.ok done, q))
    : ((piece :: pieces).mapM (expandPiece env expander nested scope)).exec p
        = (.ok ({ before := piece.1, directive := piece.2, block } :: done), q) := by
  have hpiece : (expandPiece env expander nested scope piece).exec p
      = (.ok { before := piece.1, directive := piece.2, block }, p') := by
    unfold expandPiece
    rw [Run.exec_bind_of_ok hfirst]
    rfl
  rw [List.mapM_cons, Run.exec_bind_of_ok hpiece, Run.exec_bind_of_ok hlater]
  rfl

section Exact

variable (hsteady : env.library.Steady)
  (hlevels : env.settings.levels = (env.below room).settings.levels + 1)

include hsteady hlevels

theorem exec_of_blockOf {d : Directive} {p : Progress} {text : Text} {n : Nat}
    (h : BlockOf env room nested scope p.idsDrawn d text n)
    : ∃ block q, (expandDirective env (content env env.settings.levels []) nested scope d).exec p
        = (.ok block, q) ∧ block.text = text ∧ q.idsDrawn = n := by
  cases h with
  | skipped hskips =>
    obtain ⟨q, hexec, hdrawn⟩ := exec_expandDirective_of_skips _ nested scope hskips p
    exact ⟨.skipped, q, hexec, rfl, hdrawn⟩
  | inserted hi hfile hseparately =>
    obtain ⟨p', _, hrun⟩ := exec_expandDirective_of_includes
      (content_sameRegions env env.settings.levels []) nested hi p
    rw [outcome_content hsteady hlevels hfile, hseparately] at hrun
    exact hrun

theorem exec_mapM_of_blocks {pieces : List (Text × Directive)} {p : Progress} {blocks : List Text}
    {n : Nat} (h : Blocks env room nested scope p.idsDrawn (pieces.map Prod.snd) blocks n)
    : ∃ done q, (pieces.mapM (expandPiece env (content env env.settings.levels []) nested scope)).exec p
        = (.ok done, q) ∧ done.map (·.block.text) = blocks ∧ q.idsDrawn = n := by
  induction pieces generalizing p blocks with
  | nil =>
    cases h with
    | nil => exact ⟨[], p, rfl, rfl, rfl⟩
  | cons piece pieces ih =>
    cases h with
    | cons hfirst hlater =>
      obtain ⟨block, p', hexec, htext, hdrawn⟩ := exec_of_blockOf hsteady hlevels hfirst
      rw [← hdrawn] at hlater
      obtain ⟨done, q, hdone, htexts, hn⟩ := ih hlater
      refine ⟨_, q, exec_mapM_cons hexec hdone, ?_, hn⟩
      rw [List.map_cons, htext, htexts]

theorem outcome_of_separately_error {d : Directive} {i : Inclusion} {file : Text} {e : Failure}
    (hi : Includes env.library scope d i) (hfile : substituted env i = .ok file)
    (he : separately env room i.scope file = .error e) (p : Progress)
    : ((expandDirective env (content env env.settings.levels []) nested scope d).exec p).1
        = .error (e.below i.name env.settings.maxDepth) := by
  obtain ⟨p', _, hrun⟩ := exec_expandDirective_of_includes
    (content_sameRegions env env.settings.levels []) nested hi p
  rw [outcome_content hsteady hlevels hfile, he] at hrun
  exact hrun

end Exact

theorem exec_mapM_of_skips (expander : Expander) {pieces : List (Text × Directive)}
    (h : ∀ d ∈ pieces.map Prod.snd, Skips env.library d) (p : Progress)
    : ∃ done q, (pieces.mapM (expandPiece env expander nested scope)).exec p = (.ok done, q) := by
  induction pieces generalizing p with
  | nil => exact ⟨[], p, rfl⟩
  | cons piece pieces ih =>
    obtain ⟨p', hexec, _⟩ := exec_expandDirective_of_skips expander nested scope (h piece.2 (by simp)) p
    obtain ⟨done, q, hdone⟩ := ih (fun d hd => h d (by simp [hd])) p'
    exact ⟨_, q, exec_mapM_cons hexec hdone⟩

theorem outcome_expand_of_error {text : Text} {earlier later : List (Text × Directive)}
    {piece : Text × Directive} {done : List Piece} {e : Failure} {p q : Progress}
    (hpieces : (Outline.ofText text).pieces = earlier ++ piece :: later)
    (hearlier : (earlier.mapM (expandPiece env (content env env.settings.levels []) nested scope)).exec p
      = (.ok done, q))
    (he : ((expandDirective env (content env env.settings.levels []) nested scope piece.2).exec q).1
      = .error e)
    : ((expand env nested scope text).exec p).1 = .error e := by
  have hpiece : (expandPiece env (content env env.settings.levels []) nested scope piece).exec q
      = (.error e, ((expandDirective env (content env env.settings.levels []) nested scope piece.2).exec
          q).2) := by
    unfold expandPiece
    apply Run.exec_bind_of_error
    rw [← he]
  rw [expand_eq_expandOutline, expandOutline, hpieces, List.mapM_append]
  simp only [bind_assoc, List.mapM_cons]
  rw [Run.exec_bind_of_ok hearlier, Run.exec_bind_of_error hpiece]

end Run

/-! ## The whole text -/

structure Comparable (env : Environment) (room : Nat) : Prop where
  steady : env.library.Steady
  positive : 0 < env.settings.maxDepth
  stack : env.settings.maxDepth ≤ env.settings.nestingLimit ∨ env.settings.nestingLimit = room + 1

structure Composes (env : Environment) (room : Nat) (nested : Bool) (scope : Scope) (text : Text)
    (p : Progress) : Prop where
  inserted : ∀ result, ((expand env nested scope text).exec p).1 = .ok result →
    ∃ blocks n, Blocks env room nested scope p.idsDrawn (directives text) blocks n ∧
      result = insertAfter text 0 ((findDirectives text).zip blocks)
  succeeds : Comparable env room → ∀ blocks n,
    Blocks env room nested scope p.idsDrawn (directives text) blocks n →
      ((expand env nested scope text).exec p).1
        = .ok (insertAfter text 0 ((findDirectives text).zip blocks))
  raised : Comparable env room → ∀ earlier d later blocks n i file e,
    directives text = earlier ++ d :: later →
      Blocks env room nested scope p.idsDrawn earlier blocks n → Includes env.library scope d i →
        substituted env i = .ok file → separately env room i.scope file = .error e →
          ((expand env nested scope text).exec p).1 = .error (e.below i.name env.settings.maxDepth)
  refused : env.settings.maxDepth ≤ 0 → ∀ earlier d later i,
    directives text = earlier ++ d :: later → (∀ other ∈ earlier, Skips env.library other) →
      Includes env.library scope d i →
        ((expand env nested scope text).exec p).1
          = .error (.circularInclude [i.name] env.settings.maxDepth)

theorem exists_pieces {text : Text} {earlier later : List Directive} {d : Directive}
    (h : directives text = earlier ++ d :: later)
    : ∃ before piece after, (Outline.ofText text).pieces = before ++ piece :: after ∧
        before.map Prod.snd = earlier ∧ piece.2 = d := by
  rw [directives_eq, List.map_eq_append_iff] at h
  obtain ⟨before, rest, hpieces, hearlier, hrest⟩ := h
  obtain ⟨piece, after, rfl, hpiece, _⟩ := List.map_eq_cons_iff.mp hrest
  exact ⟨before, piece, after, hpieces, hearlier, hpiece⟩

theorem outcome_expand_of_refused {env : Environment} (hdepth : env.settings.maxDepth ≤ 0)
    (nested : Bool) {scope : Scope} {text : Text} {earlier later : List Directive} {d : Directive}
    {i : Inclusion} (hdirectives : directives text = earlier ++ d :: later)
    (hskips : ∀ other ∈ earlier, Skips env.library other) (hi : Includes env.library scope d i)
    (p : Progress)
    : ((expand env nested scope text).exec p).1
        = .error (.circularInclude [i.name] env.settings.maxDepth) := by
  have hlevels : env.settings.levels = 0 := by
    unfold Settings.levels
    omega
  obtain ⟨before, piece, after, hpieces, rfl, rfl⟩ := exists_pieces hdirectives
  obtain ⟨done, q, hrun⟩ := exec_mapM_of_skips _ hskips p
  apply outcome_expand_of_error hpieces hrun
  obtain ⟨p', _, hrun⟩ := exec_expandDirective_of_includes
    (content_sameRegions env env.settings.levels []) nested hi q
  rw [hlevels] at hrun ⊢
  exact hrun

theorem outcome_expand_of_done {env : Environment} {nested : Bool} {scope : Scope} {text : Text}
    {done : List Piece} {p q : Progress}
    (h : ((Outline.ofText text).pieces.mapM
      (expandPiece env (content env env.settings.levels []) nested scope)).exec p = (.ok done, q))
    : ((expand env nested scope text).exec p).1
        = .ok (insertAfter text 0 ((findDirectives text).zip (done.map (·.block.text)))) := by
  have houtline := outline_of_mapM h
  have hinsert := insertAfter_locate [] done (Outline.ofText text).rest
  rw [List.nil_append, source_of_outline houtline, houtline] at hinsert
  rw [expand_eq_expandOutline, expandOutline, Run.exec_bind_of_ok h, Run.exec_pure]
  exact congrArg Except.ok hinsert.symm

theorem Comparable.levels_eq {env : Environment} {room : Nat} (h : Comparable env room)
    (hroom : env.settings.nestingLimit ≤ room + 1)
    : env.settings.levels = (env.below room).settings.levels + 1 := by
  have := h.positive
  unfold Settings.levels Environment.below
  dsimp only
  rcases h.stack with hstack | hstack <;> omega

/-- The expansion of a text is composed of those of the files that it includes: it is the text with
their blocks inserted, or the first failure of them. -/
theorem expand_composes (env : Environment) {room : Nat} (hroom : env.settings.nestingLimit ≤ room + 1)
    (nested : Bool) (scope : Scope) (text : Text) (p : Progress)
    : Composes env room nested scope text p where
  inserted result hresult := by
    cases hrun : ((Outline.ofText text).pieces.mapM
        (expandPiece env (content env env.settings.levels []) nested scope)).exec p with
    | mk outcome q =>
      cases outcome with
      | error e =>
        rw [expand_eq_expandOutline, expandOutline, Run.exec_bind_of_error hrun] at hresult
        simp at hresult
      | ok done =>
        have hblocks := blocks_mapM hroom hrun
        rw [← directives_eq] at hblocks
        rw [outcome_expand_of_done hrun, Except.ok.injEq] at hresult
        exact ⟨_, _, hblocks, hresult.symm⟩
  succeeds hcomparable blocks n hblocks := by
    rw [directives_eq] at hblocks
    obtain ⟨done, q, hrun, hdone, _⟩ :=
      exec_mapM_of_blocks hcomparable.steady (hcomparable.levels_eq hroom) hblocks
    rw [outcome_expand_of_done hrun, hdone]
  raised hcomparable earlier d later blocks n i file e hdirectives hblocks hi hfile he := by
    have hlevels := hcomparable.levels_eq hroom
    obtain ⟨before, piece, after, hpieces, rfl, rfl⟩ := exists_pieces hdirectives
    obtain ⟨done, q, hrun, _⟩ := exec_mapM_of_blocks hcomparable.steady hlevels hblocks
    exact outcome_expand_of_error hpieces hrun
      (outcome_of_separately_error hcomparable.steady hlevels hi hfile he q)
  refused hdepth _ _ _ _ hdirectives hskips hi :=
    outcome_expand_of_refused hdepth nested hdirectives hskips hi p

def nestedFiles (maxDepth : Int) : Environment where
  settings := { maxDepth }
  library := {
    index := .ofEntries [(['a'], { root := .none, names := [['a']] }),
      (['b'], { root := .none, names := [['b']] })]
    read := fun path => if path.names = [['a']] then .ok "<!-- include b -->" else .ok ['h', 'i']
    readVariables := fun _ => .ok ∅ }
  ids _ := ['I']

def including (name : Text) : Directive where
  indent := []
  parameters := "include " ++ name ++ " "

def fileNamed (name : Text) : Inclusion where
  name
  path := { root := .none, names := [name] }
  scope := ∅

theorem directives_including {name : Text} (h : name = ['a'] ∨ name = ['b'])
    : directives (including name).text = [including name] := by
  rcases h with rfl | rfl <;> decide +kernel

theorem includes_nestedFiles (maxDepth : Int) {name : Text} (h : name = ['a'] ∨ name = ['b'])
    : Includes (nestedFiles maxDepth).library ∅ (including name) (fileNamed name) := by
  have hname : (Parameters.parse (including name).parameters).name = some name := by
    rcases h with rfl | rfl <;> decide +kernel
  have hvariables : (Parameters.parse (including name).parameters).variablesFile = none := by
    rcases h with rfl | rfl <;> decide +kernel
  have hcondition : (Parameters.parse (including name).parameters).condition = none := by
    rcases h with rfl | rfl <;> decide +kernel
  have hbindings : (Parameters.parse (including name).parameters).bindings = ∅ := by
    apply OrderedMap.ext
    rcases h with rfl | rfl <;> decide +kernel
  refine ⟨hname, ?_, ?_, ?_, ?_⟩
  . rcases h with rfl | rfl <;> rfl
  . simp [hcondition, Unguarded]
  . simp [hvariables]
  . simp [layers, hvariables, hbindings, fileNamed]

theorem steady_nestedFiles (maxDepth : Int) : (nestedFiles maxDepth).library.Steady := by
  constructor
  . intro path
    dsimp only [nestedFiles]
    split
    . exact .ok _
    . exact .ok _
  . intro path
    exact .ok _

theorem substituted_nestedFiles (maxDepth : Int)
    : substituted (nestedFiles maxDepth) (fileNamed ['a']) = .ok (including ['b']).text := by
  rfl

theorem separately_nestedFiles {maxDepth : Int} (h : maxDepth ≤ 1) (room : Nat)
    : separately (nestedFiles maxDepth) room ∅ (including ['b']).text
        = .error (.circularInclude [['b']] (maxDepth - 1)) := by
  have hdepth : ((nestedFiles maxDepth).below room).settings.maxDepth ≤ 0 := by
    unfold Environment.below nestedFiles
    dsimp only
    omega
  have hdirectives : directives (including ['b']).text = [] ++ including ['b'] :: [] :=
    directives_including (.inr rfl)
  exact outcome_expand_of_refused hdepth true hdirectives (by simp)
    (includes_nestedFiles maxDepth (.inr rfl)) {}

theorem expand_composes_nestedFiles
    : ((expand (nestedFiles 2) false ∅ (including ['a']).text).exec {}).1
          = .ok ("<!-- include a -->\n<!-- included \"a\" \"I\" -->\n\n  <!-- include b -->\n    hi\n" ++
            "<!-- / included \"a\" \"I\" -->\n") ∧
        ((expand (nestedFiles 1) false ∅ (including ['a']).text).exec {}).1
          = .error (.circularInclude [['a'], ['b']] 1) := by
  have hroom : ∀ maxDepth, (nestedFiles maxDepth).settings.nestingLimit ≤ 490 + 1 := by
    intro maxDepth
    exact Nat.le_succ 490
  have hincludes := fun maxDepth => includes_nestedFiles maxDepth (.inl rfl)
  have hdirectives := directives_including (.inl rfl)
  constructor
  . have hcontent : separately (nestedFiles 2) 490 ∅ (including ['b']).text
        = .ok "<!-- include b -->\n  hi" :=
      eq_ok_of_toOption (by decide +kernel)
    have hcomparable : Comparable (nestedFiles 2) 490 :=
      ⟨steady_nestedFiles 2, by decide, .inl (by decide)⟩
    have hblocks : Blocks (nestedFiles 2) 490 false ∅ 0 [including ['a']] _ _ :=
      .cons (.inserted (hincludes 2) (substituted_nestedFiles 2) hcontent) (.nil _)
    rw [← hdirectives] at hblocks
    rw [(expand_composes (nestedFiles 2) (hroom 2) false ∅ _ {}).succeeds hcomparable _ _ hblocks]
    exact congrArg Except.ok (by decide +kernel)
  . have hcomparable : Comparable (nestedFiles 1) 490 :=
      ⟨steady_nestedFiles 1, by decide, .inl (by decide)⟩
    have hraises := separately_nestedFiles (show (1 : Int) ≤ 1 by decide) 490
    exact (expand_composes (nestedFiles 1) (hroom 1) false ∅ _ {}).raised hcomparable [] _ [] [] 0 _ _ _
      hdirectives (.nil 0) (hincludes 1) (substituted_nestedFiles 1) hraises

theorem expand_refused_nestedFiles
    : Includes (nestedFiles 0).library ∅ (including ['a']) (fileNamed ['a']) ∧
        substituted (nestedFiles 0) (fileNamed ['a']) = .ok (including ['b']).text ∧
        separately (nestedFiles 0) 490 ∅ (including ['b']).text
          = .error (.circularInclude [['b']] (-1)) ∧
        ((expand (nestedFiles 0) false ∅ (including ['a']).text).exec {}).1
          = .error (.circularInclude [['a']] 0) ∧
        ((expand (nestedFiles 0) false ∅ (including ['a']).text).exec {}).1
          ≠ .error (.circularInclude [['a'], ['b']] 0) := by
  have hincludes := includes_nestedFiles 0 (.inl rfl)
  have hdirectives : directives (including ['a']).text = [] ++ including ['a'] :: [] :=
    directives_including (.inl rfl)
  have hrefused := outcome_expand_of_refused (Int.le_refl _) false hdirectives (by simp) hincludes {}
  refine ⟨hincludes, substituted_nestedFiles 0, separately_nestedFiles (by decide) 490, hrefused, ?_⟩
  rw [hrefused]
  simp [fileNamed]

end Expansion
end Transclusion
