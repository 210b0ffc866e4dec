import Transclusion.Proofs.Expansion.Composition

/-!
This module contains the order in which a run comes to directives (`Traversal`): to those of a file
right after the directive that includes it, before the next one. The report of a run that succeeds
accounts for every one of them exactly once, as an inclusion or as a skip (`expand_accounted`).
-/

namespace Transclusion
namespace Expansion

def skipReason (d : Directive) : SkipReason :=
  if (Parameters.parse d.parameters).name.isNone then .missingInclude else .conditionFalse

structure Encounter where
  above : List Directive
  directive : Directive
  file : Option (Inclusion × Text)

namespace Encounter

def name? (e : Encounter) : Option Text :=
  e.file.map (·.1.name)

def skip? (e : Encounter) : Option (Text × Text) :=
  match e.file with
  | none => some (e.directive.text, (skipReason e.directive).text)
  | some _ => none

def depth (e : Encounter) : Nat :=
  match e.file with
  | none => 0
  | some _ => e.above.length + 1

def found (e : Encounter) : List Directive :=
  match e.file with
  | none => []
  | some (_, content) => directives content

end Encounter

/-- What becomes of the directives that lie below others and inherit a scope. -/
inductive Traversal (env : Environment) : List Directive → Scope → List Directive → List Encounter → Prop
  | nil {above : List Directive} {scope : Scope} : Traversal env above scope [] []
  | skipped {above ds : List Directive} {scope : Scope} {d : Directive} {later : List Encounter} :
    Skips env.library d → Traversal env above scope ds later →
      Traversal env above scope (d :: ds) ({ above, directive := d, file := none } :: later)
  | included {above ds : List Directive} {scope : Scope} {d : Directive} {i : Inclusion} {content : Text}
    {below later : List Encounter} :
    Includes env.library scope d i → substituted env i = .ok content →
      Traversal env (above ++ [d]) i.scope (directives content) below →
        Traversal env above scope ds later →
          Traversal env above scope (d :: ds)
            ({ above, directive := d, file := some (i, content) } :: (below ++ later))

namespace Traversal

variable {env : Environment} {above ds : List Directive} {scope : Scope} {es : List Encounter}

theorem unique {others : List Encounter} (h : Traversal env above scope ds es)
    (h' : Traversal env above scope ds others) : es = others := by
  induction h generalizing others with
  | nil =>
    cases h'
    rfl
  | @skipped _ _ scope d _ hskips _ ih =>
    have htarget : target env.library scope d = .ok none := target_eq_none_iff.mpr hskips
    cases h' with
    | skipped _ hlater => rw [ih hlater]
    | included hi =>
      rw [target_eq_some_iff.mpr hi] at htarget
      simp at htarget
  | included hi hcontent _ _ ihbelow ihlater =>
    have htarget := target_eq_some_iff.mpr hi
    cases h' with
    | skipped hskips =>
      rw [target_eq_none_iff.mpr hskips] at htarget
      simp at htarget
    | included hi' hcontent' hbelow hlater =>
      rw [target_eq_some_iff.mpr hi', Except.ok.injEq, Option.some.injEq] at htarget
      rw [htarget, hcontent, Except.ok.injEq] at hcontent'
      rw [htarget, ← hcontent'] at hbelow
      rw [htarget, ← hcontent', ihbelow hbelow, ihlater hlater]

-- Every directive stands in the document or in one of the included files, and is come to once.
theorem perm (h : Traversal env above scope ds es)
    : (es.map (·.directive)).Perm (ds ++ es.flatMap Encounter.found) := by
  rw [List.perm_iff_count]
  intro d
  induction h with
  | nil => rfl
  | skipped _ _ ih =>
    simp only [List.map_cons, List.flatMap_cons, Encounter.found, List.nil_append, List.cons_append,
      List.count_cons, ih]
  | included _ _ _ _ ihbelow ihlater =>
    simp only [List.map_cons, List.map_append, List.flatMap_cons, List.flatMap_append,
      List.cons_append, List.count_cons, List.count_append, Encounter.found] at *
    omega

theorem above_isPrefix (h : Traversal env above scope ds es) : ∀ e ∈ es, above <+: e.above := by
  induction h with
  | nil => simp
  | skipped _ _ ih =>
    rw [List.forall_mem_cons]
    exact ⟨List.prefix_rfl, ih⟩
  | included _ _ _ _ ihbelow ihlater =>
    rw [List.forall_mem_cons, List.forall_mem_append]
    refine ⟨List.prefix_rfl, ?_, ihlater⟩
    intro e he
    exact (List.prefix_append _ _).trans (ihbelow e he)

end Traversal

structure Accounts (es : List Encounter) (p q : Progress) : Prop where
  includesResolved : q.report.includesResolved
    = p.report.includesResolved ++ es.filterMap Encounter.name?
  skipped : q.report.skipped = p.report.skipped ++ es.filterMap Encounter.skip?
  maxDepthReached : q.report.maxDepthReached
    = (es.map Encounter.depth).foldl max p.report.maxDepthReached

theorem Accounts.append {es later : List Encounter} {p q s : Progress} (h : Accounts es p q)
    (h' : Accounts later q s) : Accounts (es ++ later) p s where
  includesResolved := by
    rw [h'.includesResolved, h.includesResolved, List.filterMap_append, List.append_assoc]
  skipped := by
    rw [h'.skipped, h.skipped, List.filterMap_append, List.append_assoc]
  maxDepthReached := by
    rw [h'.maxDepthReached, h.maxDepthReached, List.map_append, List.foldl_append]

def Idle (p q : Progress) : Prop :=
  Accounts [] p q

theorem idle_of_eq {p q : Progress} (hincludes : q.report.includesResolved = p.report.includesResolved)
    (hskipped : q.report.skipped = p.report.skipped)
    (hdepth : q.report.maxDepthReached = p.report.maxDepthReached) : Idle p q where
  includesResolved := by simpa using hincludes
  skipped := by simpa using hskipped
  maxDepthReached := hdepth

theorem log_idle (level : Int) (message : Text) : (log level message).Moves Idle := by
  intro p
  exact idle_of_eq rfl rfl rfl

theorem loadVariables_idle (library : Library) (name : Text)
    : (loadVariables library name).Moves Idle := by
  intro p
  unfold loadVariables
  split
  . exact idle_of_eq rfl rfl rfl
  . rw [Run.exec_bind_of_ok (exec_updateReport ..), Run.exec_ofExcept]
    exact idle_of_eq rfl rfl rfl

theorem localScope_idle (library : Library) (inherited : Scope) (ps : Parameters)
    : (localScope library inherited ps).Moves Idle := by
  unfold localScope
  dsimp only
  split
  . intro p
    exact idle_of_eq rfl rfl rfl
  next name _ =>
    apply Run.Moves.bind (fun _ _ _ => Accounts.append) (loadVariables_idle library name)
    intro _ p
    exact idle_of_eq rfl rfl rfl

theorem conditionHolds_idle (d : Directive) (condition : Option Text)
    : (conditionHolds d condition).Moves Idle := by
  intro p
  unfold conditionHolds
  split
  . exact idle_of_eq rfl rfl rfl
  . split
    . exact idle_of_eq rfl rfl rfl
    . exact idle_of_eq rfl rfl rfl

theorem accounts_skipped {d : Directive} {reason : SkipReason} (hreason : skipReason d = reason)
    {level : Int} {message : Text} {found : Option Inclusion} {p q : Progress}
    (h : (do
        log level message
        updateReport (·.recordSkip d.text reason.text)
        return none : Run (Option Inclusion)).exec p = (.ok found, q)) (above : List Directive)
    : found = none ∧ Accounts [{ above, directive := d, file := none }] p q := by
  rw [Run.exec_bind_of_ok (exec_log ..), Run.exec_bind_of_ok (exec_updateReport ..), Run.exec_pure,
    Prod.mk.injEq, Except.ok.injEq] at h
  rw [← h.1, ← h.2, ← hreason]
  exact ⟨rfl, by simp [Encounter.name?, Report.recordSkip], rfl,
    by simp [Encounter.depth, Report.recordSkip]⟩

theorem accounts_resolve {library : Library} {scope : Scope} {d : Directive} {found : Option Inclusion}
    {p q : Progress} (h : (resolve library scope d).exec p = (.ok found, q)) (above : List Directive)
    : (found = none ∧ Accounts [{ above, directive := d, file := none }] p q) ∨
        (∃ i, found = some i ∧ Idle p q) := by
  unfold resolve at h
  dsimp only at h
  split at h
  next hname =>
    left
    apply accounts_skipped _ h
    simp [skipReason, hname]
  next name hname =>
    obtain ⟨_, p', hscope, h⟩ := Run.exec_bind_eq_ok h
    obtain ⟨_, p'', hlog, h⟩ := Run.exec_bind_eq_ok h
    have hidle : Idle p p'' := Accounts.append ((localScope_idle library scope _).of_exec hscope)
      ((log_idle _ _).of_exec hlog)
    split at h
    next => simp [Run.exec_throw] at h
    next path _ =>
      obtain ⟨_, s, hholds, h⟩ := Run.exec_bind_eq_ok h
      have hidle : Idle p s := Accounts.append hidle ((conditionHolds_idle d _).of_exec hholds)
      split at h
      next =>
        rw [Run.exec_pure, Prod.mk.injEq, Except.ok.injEq] at h
        right
        refine ⟨_, h.1.symm, ?_⟩
        rw [← h.2]
        exact hidle
      next =>
        left
        have hreason : skipReason d = .conditionFalse := by simp [skipReason, hname]
        obtain ⟨hnone, haccounts⟩ := accounts_skipped hreason h above
        exact ⟨hnone, hidle.append haccounts⟩

def AccountsFor (env : Environment) (depth : Nat) (expander : Expander) : Prop :=
  ∀ i text p q, (expander i).exec p = (.ok text, q) → ∀ above d, above.length = depth →
    ∃ content below, substituted env i = .ok content ∧
      Traversal env (above ++ [d]) i.scope (directives content) below ∧
      Accounts ({ above, directive := d, file := some (i, content) } :: below) p q

theorem insertContent_idle (env : Environment) (nested : Bool) (d : Directive) (name content : Text)
    : (insertContent env nested d name content).Moves Idle := by
  intro p
  unfold insertContent
  cases nested <;> exact idle_of_eq rfl rfl rfl

theorem isSome_mark?_insertContent {env : Environment} {nested : Bool} {d : Directive}
    {name content : Text} {block : Block} {p q : Progress}
    (h : (insertContent env nested d name content).exec p = (.ok block, q))
    : block.mark?.isSome = !nested := by
  unfold insertContent at h
  cases nested with
  | true =>
    rw [if_pos rfl, Run.exec_pure, Prod.mk.injEq, Except.ok.injEq] at h
    rw [← h.1]
    rfl
  | false =>
    rw [if_neg (by decide), Run.exec_bind_of_ok (exec_drawId ..),
      Run.exec_bind_of_ok (exec_updateReport ..), Run.exec_pure, Prod.mk.injEq, Except.ok.injEq] at h
    rw [← h.1]
    rfl

/-- What one directive of a text comes to: its block, and what is come to until the next directive. -/
inductive ComesTo (env : Environment) (nested : Bool) (above : List Directive) (scope : Scope)
    (d : Directive) : Block → List Encounter → Prop
  | skipped : Skips env.library d →
    ComesTo env nested above scope d .skipped [{ above, directive := d, file := none }]
  | included {i : Inclusion} {content : Text} {block : Block} {below : List Encounter} :
    Includes env.library scope d i → substituted env i = .ok content →
      block.mark?.isSome = (!nested) →
        Traversal env (above ++ [d]) i.scope (directives content) below →
          ComesTo env nested above scope d block
            ({ above, directive := d, file := some (i, content) } :: below)

def marked (pieces : List Piece) : List Directive :=
  (pieces.filter (·.block.mark?.isSome)).map (·.directive)

theorem marked_append (pieces later : List Piece)
    : marked (pieces ++ later) = marked pieces ++ marked later := by
  simp [marked]

def includedAt (depth : Nat) (es : List Encounter) : List Directive :=
  (es.filter (·.depth == depth)).map (·.directive)

theorem includedAt_append (depth : Nat) (es later : List Encounter)
    : includedAt depth (es ++ later) = includedAt depth es ++ includedAt depth later := by
  simp [includedAt]

namespace ComesTo

variable {env : Environment} {nested : Bool} {above : List Directive} {scope : Scope} {d : Directive}
  {block : Block} {es : List Encounter}

theorem cons (h : ComesTo env nested above scope d block es) {ds : List Directive}
    {later : List Encounter} (hlater : Traversal env above scope ds later)
    : Traversal env above scope (d :: ds) (es ++ later) := by
  cases h with
  | skipped hskips => exact .skipped hskips hlater
  | included hi hcontent _ hbelow => exact .included hi hcontent hbelow hlater

theorem includedAt_below {ds : List Directive} {below : List Encounter}
    (h : Traversal env (above ++ [d]) scope ds below) : includedAt (above.length + 1) below = [] := by
  unfold includedAt
  rw [List.map_eq_nil_iff, List.filter_eq_nil_iff]
  intro e he
  have hle := (h.above_isPrefix e he).length_le
  rw [List.length_append, List.length_singleton] at hle
  rw [beq_iff_eq]
  unfold Encounter.depth
  split <;> omega

theorem marked_eq (h : ComesTo env nested above scope d block es) (before : Text)
    : marked [{ before, directive := d, block }]
        =
      if nested then [] else includedAt (above.length + 1) es := by
  cases h with
  | skipped => cases nested <;> rfl
  | included _ _ hblock hbelow =>
    have hbelow := includedAt_below hbelow
    unfold includedAt at *
    rw [List.filter_cons_of_pos (by simp [Encounter.depth]), List.map_cons, hbelow]
    unfold marked
    cases nested <;> simp [hblock]

end ComesTo

section Accounts

variable {env : Environment} {expander : Expander} {nested : Bool} {above : List Directive}
  {scope : Scope}

theorem comesTo_expandDirective (hexpander : AccountsFor env above.length expander) {d : Directive}
    {block : Block} {p q : Progress}
    (h : (expandDirective env expander nested scope d).exec p = (.ok block, q))
    : ∃ es, ComesTo env nested above scope d block es ∧ Accounts es p q := by
  obtain ⟨found, p', hfound, h⟩ := Run.exec_bind_eq_ok h
  rcases accounts_resolve hfound above with ⟨rfl, haccounts⟩ | ⟨i, rfl, hidle⟩
  . have htarget := resolve_outcome env.library scope d p
    rw [hfound] at htarget
    rw [expandTarget, Run.exec_pure, Prod.mk.injEq, Except.ok.injEq] at h
    rw [← h.1, ← h.2]
    exact ⟨_, .skipped (target_eq_none_iff.mp htarget.symm), haccounts⟩
  . obtain ⟨text, p'', htext, h⟩ := Run.exec_bind_eq_ok h
    obtain ⟨content, below, hcontent, hbelow, haccounts⟩ := hexpander i text p' p'' htext above d rfl
    refine ⟨_, .included (includes_of_resolve hfound) hcontent (isSome_mark?_insertContent h) hbelow, ?_⟩
    have haccounts := haccounts.append ((insertContent_idle env nested d i.name text).of_exec h)
    rw [List.append_nil] at haccounts
    exact Accounts.append hidle haccounts

-- The induction is on the directives of one text: those below them are the expander's business.
theorem traversal_mapM (hexpander : AccountsFor env above.length expander)
    {pieces : List (Text × Directive)} {done : List Piece} {p q : Progress}
    (h : (pieces.mapM (expandPiece env expander nested scope)).exec p = (.ok done, q))
    : ∃ es, Traversal env above scope (pieces.map Prod.snd) es ∧ Accounts es p q ∧
        marked done = if nested then [] else includedAt (above.length + 1) es := by
  induction pieces generalizing done p q with
  | nil =>
    rw [List.mapM_nil, Run.exec_pure, Prod.mk.injEq, Except.ok.injEq] at h
    rw [← h.1, ← h.2]
    refine ⟨[], .nil, idle_of_eq rfl rfl rfl, ?_⟩
    cases nested <;> rfl
  | cons piece pieces ih =>
    obtain ⟨block, p', others, hblock, hothers, rfl⟩ := exec_mapM_cons_eq_ok h
    obtain ⟨es, hcomes, haccounts⟩ := comesTo_expandDirective hexpander hblock
    obtain ⟨later, hlater, haccounts', hmarked⟩ := ih hothers
    refine ⟨es ++ later, hcomes.cons hlater, haccounts.append haccounts', ?_⟩
    rw [← List.singleton_append, marked_append, hcomes.marked_eq piece.1, hmarked, includedAt_append]
    cases nested <;> rfl

theorem traversal_expandWith (hexpander : AccountsFor env above.length expander) {text : Text}
    {e : Expanded} {p q : Progress}
    (h : (expandWith env expander nested scope text).exec p = (.ok e, q))
    : ∃ es, Traversal env above scope (directives text) es ∧ Accounts es p q ∧
        marked e.pieces = if nested then [] else includedAt (above.length + 1) es := by
  obtain ⟨done, p', hdone, h⟩ := Run.exec_bind_eq_ok h
  rw [Run.exec_pure, Prod.mk.injEq, Except.ok.injEq] at h
  rw [directives_eq, ← h.1, ← h.2]
  exact traversal_mapM hexpander hdone

end Accounts

theorem accountsFor_content (env : Environment) (levels : Nat) (chain : List Text)
    : AccountsFor env chain.length (content env levels chain) := by
  induction levels generalizing chain with
  | zero =>
    intro i text p q h
    simp [content, Run.exec_throw] at h
  | succ levels ih =>
    intro i text p q h above d habove
    have ih := ih (chain ++ [i.name])
    have hlength : (chain ++ [i.name]).length = (above ++ [d]).length := by
      simp [habove]
    rw [hlength] at ih
    unfold content expandFile at h
    rw [Run.exec_bind_of_ok (exec_updateReport ..)] at h
    obtain ⟨file, p', hfile, h⟩ := Run.exec_bind_eq_ok h
    rw [Run.exec_ofExcept, Prod.mk.injEq] at hfile
    rw [← hfile.2] at h
    obtain ⟨e, p'', he, h⟩ := Run.exec_bind_eq_ok h
    rw [Run.exec_pure, Prod.mk.injEq] at h
    rw [h.2] at he
    obtain ⟨below, hbelow, haccounts, _⟩ := traversal_expandWith ih he
    refine ⟨file, below, hfile.1, hbelow, ?_⟩
    rw [← List.singleton_append]
    apply Accounts.append _ haccounts
    constructor
    . rfl
    . simp [Encounter.skip?, Report.recordInclude]
    . simp [Encounter.depth, Report.recordInclude, habove]

def Piece.region? (piece : Piece) : Option (Directive × Text) :=
  piece.block.mark?.map fun mark => (piece.directive, mark.2)

theorem map_fst_region? (pieces : List Piece)
    : (pieces.filterMap Piece.region?).map Prod.fst = marked pieces := by
  induction pieces with
  | nil => rfl
  | cons piece pieces ih =>
    rw [← List.singleton_append, marked_append, List.filterMap_append, List.map_append, ih]
    cases hmark : piece.block.mark? <;> simp [Piece.region?, marked, hmark]

theorem map_snd_region? (pieces : List Piece)
    : (pieces.filterMap Piece.region?).map Prod.snd = (marks pieces).map Prod.snd := by
  simp [marks, Piece.region?, List.map_filterMap, Function.comp_def]

structure Numbered (env : Environment) (e : Expanded) (p q : Progress) : Prop where
  idsDrawn : q.idsDrawn = p.idsDrawn + (marked e.pieces).length
  regionsInserted : q.report.regionsInserted = p.report.regionsInserted + (marked e.pieces).length
  regions : e.pieces.filterMap Piece.region?
    = (marked e.pieces).zip ((List.range' p.idsDrawn (marked e.pieces).length).map env.ids)

theorem numbered_expanded {env : Environment} {nested : Bool} {scope : Scope} {text : Text} {e : Expanded}
    {p q : Progress} (h : (expanded env nested scope text).exec p = (.ok e, q))
    (hnested : nested = true → marked e.pieces = []) : Numbered env e p q := by
  cases nested with
  | true =>
    have hsame : (expanded env true scope text).Moves SameRegions := by
      apply admits_sameRegions.closed.expandWith (by simp [Regions])
      intro i
      exact content_sameRegions env env.settings.levels [] i
    have hnone := hnested rfl
    have hregions := map_fst_region? e.pieces
    rw [hnone, List.map_eq_nil_iff] at hregions
    obtain ⟨hdrawn, hinserted⟩ := hsame.of_exec h
    constructor
    . rw [hdrawn, hnone, List.length_nil, Nat.add_zero]
    . rw [hinserted, hnone, List.length_nil, Nat.add_zero]
    . rw [hregions, hnone, List.zip_nil_left]
  | false =>
    obtain ⟨_, hinserts, _⟩ := expanded_inserts h
    have hlength : (marks e.pieces).length = (marked e.pieces).length := by
      rw [← map_fst_region?, ← List.length_map Prod.snd, ← map_snd_region?, List.length_map,
        List.length_map]
    constructor
    . rw [hinserts.idsDrawn, hlength]
    . rw [hinserts.regionsInserted, hlength]
    . apply List.zip_of_prod (map_fst_region? e.pieces)
      rw [map_snd_region?, hinserts.ids, hlength]

structure Accounted (env : Environment) (nested : Bool) (scope : Scope) (text : Text) (drawn : Nat)
    (e : Expanded) (q : Progress) (es : List Encounter) : Prop where
  traversal : Traversal env [] scope (directives text) es
  once : (es.map (·.directive)).Perm (directives text ++ es.flatMap Encounter.found)
  count : (findDirectives text).length + (es.flatMap Encounter.found).length
    = q.report.includesResolved.length + q.report.skipped.length
  includesResolved : q.report.includesResolved = es.filterMap Encounter.name?
  skipped : q.report.skipped = es.filterMap Encounter.skip?
  maxDepthReached : q.report.maxDepthReached = (es.map Encounter.depth).foldl max 0
  idsDrawn : q.idsDrawn = drawn + q.report.regionsInserted
  regionsInserted : q.report.regionsInserted = if nested then 0 else (includedAt 1 es).length
  regions : e.pieces.filterMap Piece.region?
    = if nested then []
      else (includedAt 1 es).zip ((List.range' drawn (includedAt 1 es).length).map env.ids)

theorem length_encounters (es : List Encounter)
    : (es.filterMap Encounter.name?).length + (es.filterMap Encounter.skip?).length = es.length := by
  induction es with
  | nil => rfl
  | cons e es ih =>
    obtain ⟨above, d, file⟩ := e
    cases file with
    | none =>
      rw [List.filterMap_cons_none (by rfl), List.filterMap_cons_some (by rfl), List.length_cons,
        List.length_cons, ← ih, Nat.add_assoc]
    | some file =>
      rw [List.filterMap_cons_some (by rfl), List.filterMap_cons_none (by rfl), List.length_cons,
        List.length_cons, ← ih, Nat.add_right_comm]

/-- A run that succeeds comes to the directives in one order only, and accounts for each of them. -/
theorem expand_accounted {env : Environment} {nested : Bool} {scope : Scope}
    {text document result : Text} {drawn : Nat} {q : Progress}
    (h : Preprocess.start document drawn (expand env nested scope text) = (.ok result, q))
    : ∃ e es, Preprocess.start document drawn (expanded env nested scope text) = (.ok e, q) ∧
        result = e.text ∧ Accounted env nested scope text drawn e q es ∧
        ∀ others, Traversal env [] scope (directives text) others → others = es := by
  unfold Preprocess.start at *
  obtain ⟨e, _, he, h⟩ := Run.exec_bind_eq_ok h
  rw [Run.exec_pure, Prod.mk.injEq, Except.ok.injEq] at h
  rw [h.2] at he
  have haccountsFor : AccountsFor env ([] : List Directive).length _ :=
    accountsFor_content env env.settings.levels []
  obtain ⟨es, htraversal, haccounts, hmarked⟩ := traversal_expandWith haccountsFor he
  refine ⟨e, es, he, h.1.symm, ?_, fun others hothers => hothers.unique htraversal⟩
  have hincludes := haccounts.includesResolved
  have hskipped := haccounts.skipped
  have hnumbered := numbered_expanded he (by simp +contextual [hmarked])
  have hlength : (marked e.pieces).length = if nested then 0 else (includedAt 1 es).length := by
    rw [hmarked]
    cases nested <;> rfl
  rw [List.nil_append] at hincludes hskipped
  exact {
    traversal := htraversal
    once := htraversal.perm
    count := by
      have hencounters := htraversal.perm.length_eq
      rw [List.length_map, List.length_append, directives, List.length_map] at hencounters
      rw [hincludes, hskipped, length_encounters, hencounters]
    includesResolved := hincludes
    skipped := hskipped
    maxDepthReached := haccounts.maxDepthReached
    idsDrawn := by rw [hnumbered.idsDrawn, hnumbered.regionsInserted, Nat.zero_add]
    regionsInserted := by rw [hnumbered.regionsInserted, hlength, Nat.zero_add]
    regions := by
      rw [hnumbered.regions, hmarked]
      cases nested <;> rfl }

theorem expand_accounted_nestedFiles
    : ∃ e q es, Preprocess.start ['d'] 0 (expand (nestedFiles 2) false ∅ (including ['a']).text)
          = (.ok e.text, q) ∧
        Accounted (nestedFiles 2) false ∅ (including ['a']).text 0 e q es ∧
        es.filterMap Encounter.name? = [['a'], ['b']] ∧ es.filterMap Encounter.skip? = [] ∧
        (es.map Encounter.depth).foldl max 0 = 2 ∧ (includedAt 1 es).length = 1 := by
  have hrun : Preprocess.start ['d'] 0 (expand (nestedFiles 2) false ∅ (including ['a']).text)
      = (.ok ("<!-- include a -->\n<!-- included \"a\" \"I\" -->\n\n  <!-- include b -->\n    hi\n" ++
          "<!-- / included \"a\" \"I\" -->\n"), _) :=
    eq_of_toOption (by decide +kernel)
  have hreport :
      (Preprocess.start ['d'] 0 (expand (nestedFiles 2) false ∅ (including ['a']).text)).2.report
        = { document := ['d'], includesResolved := [['a'], ['b']], regionsInserted := 1
            maxDepthReached := 2 } := by
    decide +kernel
  obtain ⟨e, es, _, htext, haccounted, _⟩ := expand_accounted hrun
  rw [htext] at hrun
  refine ⟨e, _, es, hrun, haccounted, ?_, ?_, ?_, ?_⟩
  . rw [← haccounted.includesResolved, hreport]
  . rw [← haccounted.skipped, hreport]
  . rw [← haccounted.maxDepthReached, hreport]
  . have hinserted := haccounted.regionsInserted
    rw [hreport] at hinserted
    exact hinserted.symm

end Expansion
end Transclusion
