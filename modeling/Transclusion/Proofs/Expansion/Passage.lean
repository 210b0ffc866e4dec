import Transclusion.Proofs.Directive.Keyword
import Transclusion.Proofs.Directive.Search
import Transclusion.Proofs.Expansion.Accounting

/-!
This module contains the directives that a run comes to until it ends or fails (`passage`), and what the
report says of those that name no file: there is an entry for every directive with nothing but white
space behind its keyword, and for no other one (`missingInclude_exact`).
-/

namespace Transclusion

def Directive.isVacant (d : Directive) : Bool :=
  (d.parameters.drop Parameters.keyword.length).all Text.isBlank

def Report.unnamed (r : Report) : List (Text × Text) :=
  r.skipped.filter (·.2 == SkipReason.missingInclude.text)

theorem Report.unnamed_recordSkip (r : Report) (directive : Text) (reason : SkipReason)
    : (r.recordSkip directive reason.text).unnamed
        =
      r.unnamed ++ if reason = .missingInclude then [(directive, reason.text)] else [] := by
  unfold unnamed recordSkip
  rw [List.filter_append]
  cases reason <;> rfl

namespace Expansion

structure Passage where
  met : List Directive
  succeeds : Bool
  deriving DecidableEq

namespace Passage

def done : Passage :=
  { met := [], succeeds := true }

def andThen (a b : Passage) : Passage :=
  if a.succeeds then { b with met := a.met ++ b.met } else a

theorem andThen_done (a : Passage) : a.andThen done = a := by
  obtain ⟨met, succeeds⟩ := a
  cases succeeds <;> simp [andThen, done]

theorem mem_andThen {a b : Passage} {d : Directive} (h : d ∈ (a.andThen b).met)
    : d ∈ a.met ∨ d ∈ b.met := by
  unfold andThen at h
  split at h
  . exact List.mem_append.mp h
  . exact .inl h

section Directives

variable (library : Library) (inside : Inclusion → Passage) (scope : Scope)

def ofDirective (d : Directive) : Passage :=
  match target library scope d with
  | .error _ => { met := [d], succeeds := false }
  | .ok none => { met := [d], succeeds := true }
  | .ok (some i) => { inside i with met := d :: (inside i).met }

def ofDirectives : List Directive → Passage
  | [] => done
  | d :: ds => (ofDirective library inside scope d).andThen (ofDirectives ds)

end Directives

def ofContent (env : Environment) : Nat → Inclusion → Passage
  | 0, _ => { met := [], succeeds := false }
  | levels + 1, i =>
    match substituted env i with
    | .error _ => { met := [], succeeds := false }
    | .ok content => ofDirectives env.library (ofContent env levels) i.scope (directives content)

end Passage

def passage (env : Environment) (scope : Scope) (text : Text) : Passage :=
  Passage.ofDirectives env.library (Passage.ofContent env env.settings.levels) scope (directives text)

/-! ## Where the directives lie -/

def LiesIn (env : Environment) (scope : Scope) (text : Text) (d : Directive) : Prop :=
  d ∈ directives text ∨
    ∃ chain i content, Leads env scope text chain i ∧ substituted env i = .ok content ∧
      d ∈ directives content

namespace Passage

variable {env : Environment} {inside : Inclusion → Passage} {scope : Scope} {text : Text}

def StaysInside (env : Environment) (inside : Inclusion → Passage) : Prop :=
  ∀ i, ∀ d ∈ (inside i).met, ∃ content, substituted env i = .ok content ∧ LiesIn env i.scope content d

theorem liesIn_of_mem_ofDirective (h : StaysInside env inside) {d e : Directive}
    (hd : d ∈ directives text) (he : e ∈ (ofDirective env.library inside scope d).met)
    : LiesIn env scope text e := by
  unfold ofDirective at he
  split at he
  next =>
    rw [List.mem_singleton] at he
    exact .inl (he ▸ hd)
  next =>
    rw [List.mem_singleton] at he
    exact .inl (he ▸ hd)
  next i htarget =>
    have hi := target_eq_some_iff.mp htarget
    rcases List.mem_cons.mp he with rfl | he
    . exact .inl hd
    . obtain ⟨content, hcontent, hlies | ⟨chain, j, file, hleads, hfile, hlies⟩⟩ := h i e he
      . exact .inr ⟨[d], i, content, .last hd hi, hcontent, hlies⟩
      . exact .inr ⟨d :: chain, j, file, .step hd hi hcontent hleads, hfile, hlies⟩

theorem liesIn_of_mem_ofDirectives (h : StaysInside env inside) {ds : List Directive}
    (hds : ds ⊆ directives text) {e : Directive}
    (he : e ∈ (ofDirectives env.library inside scope ds).met) : LiesIn env scope text e := by
  induction ds with
  | nil => simp [ofDirectives, done] at he
  | cons d ds ih =>
    rw [List.cons_subset] at hds
    rw [ofDirectives] at he
    rcases mem_andThen he with he | he
    . exact liesIn_of_mem_ofDirective h hds.1 he
    . exact ih hds.2 he

theorem staysInside_ofContent (env : Environment) (levels : Nat)
    : StaysInside env (ofContent env levels) := by
  induction levels with
  | zero => simp [StaysInside, ofContent]
  | succ levels ih =>
    intro i d hd
    rw [ofContent] at hd
    split at hd
    next => simp at hd
    next content hcontent =>
      exact ⟨content, hcontent, liesIn_of_mem_ofDirectives ih (List.Subset.refl _) hd⟩

/-! ## Passages to the end -/

def Traverses (env : Environment) (inside : Inclusion → Passage) : Prop :=
  ∀ i, (inside i).succeeds = true → ∀ above, ∃ content es, substituted env i = .ok content ∧
    Traversal env above i.scope (directives content) es ∧ (inside i).met = es.map (·.directive)

theorem exists_traversal_ofDirectives (h : Traverses env inside) (above : List Directive)
    {ds : List Directive} (hsucceeds : (ofDirectives env.library inside scope ds).succeeds = true)
    : ∃ es, Traversal env above scope ds es ∧
        (ofDirectives env.library inside scope ds).met = es.map (·.directive) := by
  induction ds with
  | nil => exact ⟨[], .nil, rfl⟩
  | cons d ds ih =>
    rw [ofDirectives, andThen] at hsucceeds ⊢
    split at hsucceeds
    next hfirst =>
      obtain ⟨later, hlater, hmet⟩ := ih hsucceeds
      rw [if_pos hfirst, hmet]
      unfold ofDirective at hfirst ⊢
      split at hfirst
      next => simp at hfirst
      next htarget =>
        exact ⟨_, .skipped (target_eq_none_iff.mp htarget) hlater, rfl⟩
      next i htarget =>
        obtain ⟨content, below, hcontent, hbelow, hinside⟩ := h i hfirst (above ++ [d])
        dsimp only
        rw [hinside]
        refine ⟨_, .included (target_eq_some_iff.mp htarget) hcontent hbelow hlater, ?_⟩
        rw [List.map_cons, List.map_append, List.cons_append]
    next hfirst => exact absurd hsucceeds hfirst

theorem traverses_ofContent (env : Environment) (levels : Nat) : Traverses env (ofContent env levels) := by
  induction levels with
  | zero =>
    intro i hsucceeds
    simp [ofContent] at hsucceeds
  | succ levels ih =>
    intro i hsucceeds above
    rw [ofContent] at hsucceeds ⊢
    cases hcontent : substituted env i with
    | error e => simp [hcontent] at hsucceeds
    | ok content =>
      rw [hcontent] at hsucceeds
      obtain ⟨es, hes, hmet⟩ := exists_traversal_ofDirectives ih above hsucceeds
      exact ⟨content, es, rfl, hes, hmet⟩

end Passage

theorem liesIn_of_mem_passage {env : Environment} {scope : Scope} {text : Text} {d : Directive}
    (h : d ∈ (passage env scope text).met) : LiesIn env scope text d :=
  Passage.liesIn_of_mem_ofDirectives (Passage.staysInside_ofContent env _) (List.Subset.refl _) h

theorem exists_traversal_passage {env : Environment} {scope : Scope} {text : Text}
    (h : (passage env scope text).succeeds = true)
    : ∃ es, Traversal env [] scope (directives text) es ∧
        (passage env scope text).met = es.map (·.directive) :=
  Passage.exists_traversal_ofDirectives (Passage.traverses_ofContent env _) [] h

/-! ## What is reported of them -/

def entries (ds : List Directive) : List (Text × Text) :=
  (ds.filter fun d => (Parameters.parse d.parameters).name.isNone).map fun d =>
    (d.text, SkipReason.missingInclude.text)

theorem entries_append (ds later : List Directive)
    : entries (ds ++ later) = entries ds ++ entries later := by
  simp [entries]

def Takes {α : Type} (r : Run α) (a : Passage) : Prop :=
  ∀ p, (r.exec p).1.isOk = a.succeeds ∧
    (r.exec p).2.report.unnamed = p.report.unnamed ++ entries a.met

theorem takes_pure {α : Type} (a : α) : Takes (pure a) .done := by
  intro p
  exact ⟨rfl, (List.append_nil _).symm⟩

theorem Takes.bind {α β : Type} {r : Run α} {f : α → Run β} {a b : Passage} (hr : Takes r a)
    (hf : ∀ x, Takes (f x) b) : Takes (r >>= f) (a.andThen b) := by
  intro p
  obtain ⟨hsucceeds, hunnamed⟩ := hr p
  rw [Run.exec_bind, Passage.andThen, ← hsucceeds]
  cases h : r.exec p with
  | mk outcome q =>
    rw [h] at hsucceeds hunnamed
    cases outcome with
    | error e => exact ⟨hsucceeds, hunnamed⟩
    | ok x =>
      obtain ⟨hsucceeds', hunnamed'⟩ := hf x q
      refine ⟨hsucceeds', ?_⟩
      dsimp only at hunnamed ⊢
      rw [hunnamed', hunnamed, List.append_assoc, ← entries_append]
      rfl

theorem Takes.bind_of_done {α β : Type} {r : Run α} {f : α → Run β} {a : Passage} (hr : Takes r a)
    (hf : ∀ x, Takes (f x) .done) : Takes (r >>= f) a := by
  have := hr.bind hf
  rwa [Passage.andThen_done] at this

def SameUnnamed (p q : Progress) : Prop :=
  q.report.unnamed = p.report.unnamed

theorem SameUnnamed.of_idle {p q : Progress} (h : Idle p q) : SameUnnamed p q := by
  have hskipped := h.skipped
  rw [List.filterMap_nil, List.append_nil] at hskipped
  rw [SameUnnamed, Report.unnamed, hskipped]
  rfl

theorem resolve_sameUnnamed (library : Library) (scope : Scope) {d : Directive}
    (h : (Parameters.parse d.parameters).name.isSome = true)
    : (resolve library scope d).Moves SameUnnamed := by
  have htrans : ∀ p q s, SameUnnamed p q → SameUnnamed q s → SameUnnamed p s :=
    fun _ _ _ hpq hqs => hqs.trans hpq
  have hidle : ∀ {α : Type} {r : Run α}, r.Moves Idle → r.Moves SameUnnamed :=
    fun hr p => .of_idle (hr p)
  obtain ⟨name, hname⟩ := Option.isSome_iff_exists.mp h
  unfold resolve
  dsimp only
  rw [hname]
  apply Run.Moves.bind htrans (hidle (localScope_idle library scope _))
  intro _
  apply Run.Moves.bind htrans (hidle (log_idle _ _))
  intro _
  split
  next => exact fun _ => rfl
  next =>
    apply Run.Moves.bind htrans (hidle (conditionHolds_idle d _))
    intro holds
    cases holds with
    | true => exact fun _ => rfl
    | false =>
      apply Run.Moves.bind htrans (hidle (log_idle _ _))
      intro _ p
      have hskip := Report.unnamed_recordSkip p.report d.text .conditionFalse
      rw [if_neg (by decide), List.append_nil] at hskip
      exact hskip

theorem unnamed_resolve (library : Library) (scope : Scope) (d : Directive) (p : Progress)
    : ((resolve library scope d).exec p).2.report.unnamed = p.report.unnamed ++ entries [d] := by
  cases hname : (Parameters.parse d.parameters).name with
  | none =>
    have hentries : entries [d] = [(d.text, SkipReason.missingInclude.text)] := by
      simp [entries, hname]
    unfold resolve
    dsimp only
    rw [hname, hentries]
    exact Report.unnamed_recordSkip p.report d.text .missingInclude
  | some name =>
    have hentries : entries [d] = [] := by simp [entries, hname]
    rw [hentries, List.append_nil]
    exact resolve_sameUnnamed library scope (by rw [hname]; rfl) p

section Expanded

variable {env : Environment} {expander : Expander} {inside : Inclusion → Passage}

theorem takes_insertContent (env : Environment) (nested : Bool) (d : Directive) (name content : Text)
    : Takes (insertContent env nested d name content) .done := by
  intro p
  unfold insertContent
  cases nested <;> exact ⟨rfl, (List.append_nil _).symm⟩

theorem takes_expandDirective (h : ∀ i, Takes (expander i) (inside i)) (nested : Bool) (scope : Scope)
    (d : Directive)
    : Takes (expandDirective env expander nested scope d)
        (Passage.ofDirective env.library inside scope d) := by
  intro p
  have houtcome := resolve_outcome env.library scope d p
  have hunnamed := unnamed_resolve env.library scope d p
  unfold expandDirective
  rw [Run.exec_bind, Passage.ofDirective, ← houtcome]
  cases hresolve : (resolve env.library scope d).exec p with
  | mk outcome q =>
    rw [hresolve] at hunnamed
    rcases outcome with e | _ | i
    . exact ⟨rfl, hunnamed⟩
    . exact ⟨rfl, hunnamed⟩
    . obtain ⟨hsucceeds, hbelow⟩ :=
        (h i).bind_of_done (fun content => takes_insertContent env nested d i.name content) q
      refine ⟨hsucceeds, ?_⟩
      dsimp only [expandTarget] at hunnamed ⊢
      rw [hbelow, hunnamed, List.append_assoc, ← entries_append, List.singleton_append]

theorem takes_mapM (h : ∀ i, Takes (expander i) (inside i)) (nested : Bool) (scope : Scope)
    (pieces : List (Text × Directive))
    : Takes (pieces.mapM (expandPiece env expander nested scope))
        (Passage.ofDirectives env.library inside scope (pieces.map Prod.snd)) := by
  induction pieces with
  | nil => exact takes_pure []
  | cons piece pieces ih =>
    have hpiece : Takes (expandPiece env expander nested scope piece)
        (Passage.ofDirective env.library inside scope piece.2) :=
      (takes_expandDirective h nested scope piece.2).bind_of_done fun _ => takes_pure _
    rw [List.mapM_cons]
    apply hpiece.bind
    intro _
    exact ih.bind_of_done fun _ => takes_pure _

theorem takes_expandWith (h : ∀ i, Takes (expander i) (inside i)) (nested : Bool) (scope : Scope)
    (text : Text)
    : Takes (expandWith env expander nested scope text)
        (Passage.ofDirectives env.library inside scope (directives text)) := by
  rw [directives_eq]
  exact (takes_mapM h nested scope _).bind_of_done fun _ => takes_pure _

end Expanded

theorem takes_content (env : Environment) (levels : Nat) (chain : List Text) (i : Inclusion)
    : Takes (content env levels chain i) (Passage.ofContent env levels i) := by
  induction levels generalizing chain i with
  | zero =>
    intro p
    exact ⟨rfl, (List.append_nil _).symm⟩
  | succ levels ih =>
    intro p
    unfold content expandFile
    rw [Run.exec_bind_of_ok (exec_updateReport ..), Passage.ofContent]
    cases hfile : substituted env i with
    | error e =>
      rw [Run.exec_bind_of_error (Run.exec_ofExcept ..)]
      exact ⟨rfl, (List.append_nil p.report.unnamed).symm⟩
    | ok file =>
      rw [Run.exec_bind_of_ok (Run.exec_ofExcept ..)]
      exact (takes_expandWith (ih _) true i.scope file).bind_of_done (fun _ => takes_pure _) _

theorem takes_expand (env : Environment) (nested : Bool) (scope : Scope) (text : Text)
    : Takes (expand env nested scope text) (passage env scope text) :=
  (takes_expandWith (takes_content env _ []) nested scope text).bind_of_done fun _ => takes_pure _

theorem exists_parameters_eq {text : Text} {d : Directive} (h : d ∈ directives text)
    : ∃ inner, d.parameters = includeLead ++ inner := by
  rw [directives_eq] at h
  obtain ⟨piece, hpiece, rfl⟩ := List.mem_map.mp h
  obtain ⟨_, later, hlater⟩ := exists_parametersAt?_of_mem_go hpiece
  obtain ⟨inner, _, hinner, _⟩ := Directive.exists_of_parametersAt?_eq_some hlater
  exact ⟨inner, hinner⟩

theorem isVacant_iff {text : Text} {d : Directive} (h : d ∈ directives text)
    : d.isVacant = true ↔ (Parameters.parse d.parameters).name = none := by
  obtain ⟨inner, hinner⟩ := exists_parameters_eq h
  obtain ⟨_, _, _, hblank⟩ := Parameters.name_parse inner
  have hdrop : (includeLead ++ inner).drop Parameters.keyword.length = ' ' :: inner := by rfl
  have hspace : Text.isBlank ' ' = true := by decide
  rw [Directive.isVacant, hinner, hblank, hdrop, List.all_eq_true, List.forall_mem_cons,
    and_iff_right hspace]

theorem entries_passage (env : Environment) (scope : Scope) (text : Text)
    : entries (passage env scope text).met
        =
      ((passage env scope text).met.filter (·.isVacant)).map fun d =>
        (d.text, SkipReason.missingInclude.text) := by
  unfold entries
  congr 1
  apply List.filter_congr
  intro d hd
  have hfound : ∃ text, d ∈ directives text := by
    rcases liesIn_of_mem_passage hd with hmem | ⟨_, _, content, _, _, hmem⟩
    . exact ⟨text, hmem⟩
    . exact ⟨content, hmem⟩
  obtain ⟨text, hmem⟩ := hfound
  rw [Bool.eq_iff_iff, Option.isNone_iff_eq_none, isVacant_iff hmem]

/-- A directive has no name exactly if it has nothing but white space behind its keyword; otherwise its
name is the second token. So the report of a run, whether it fails or not, says of exactly these among
the directives that the run comes to that they are skipped for want of a name. -/
theorem missingInclude_exact
    : (∀ text, ∀ l ∈ findDirectives text, ∃ after later,
          l.directive.parameters = Parameters.keyword ++ after ∧
          Parameters.tokenize l.directive.parameters = Parameters.keyword :: later ∧
          (Parameters.parse l.directive.parameters).name = later.head? ∧
          ((Parameters.parse l.directive.parameters).name = none ↔
            ∀ c ∈ after, Text.isBlank c = true)) ∧
        ∀ env nested scope text p,
          ((expand env nested scope text).exec p).2.report.unnamed
              =
            p.report.unnamed ++ ((passage env scope text).met.filter (·.isVacant)).map (fun d =>
              (d.text, SkipReason.missingInclude.text)) ∧
          ((expand env nested scope text).exec p).1.isOk = (passage env scope text).succeeds ∧
          ((passage env scope text).succeeds = true →
            ∃ es, Traversal env [] scope (directives text) es ∧
              (passage env scope text).met = es.map (·.directive)) ∧
          ∀ d ∈ (passage env scope text).met, LiesIn env scope text d := by
  constructor
  . intro text l hl
    obtain ⟨inner, hinner⟩ := exists_parameters_eq (List.mem_map_of_mem hl)
    obtain ⟨later, htokens, hname, hblank⟩ := Parameters.name_parse inner
    have hspace : Text.isBlank ' ' = true := by decide
    rw [hinner]
    refine ⟨' ' :: inner, later, Parameters.includeLead_append inner, htokens, hname, ?_⟩
    rw [hblank, List.forall_mem_cons, and_iff_right hspace]
  . intro env nested scope text p
    obtain ⟨hsucceeds, hunnamed⟩ := takes_expand env nested scope text p
    rw [entries_passage] at hunnamed
    exact ⟨hunnamed, hsucceeds, exists_traversal_passage, fun d => liesIn_of_mem_passage⟩

def vacant : Directive where
  indent := []
  parameters := "include \u00a0"

def emptilyNamed : Directive where
  indent := []
  parameters := "include \"\""

def partlyNamed : Text :=
  (including ['a']).text ++ vacant.text ++ emptilyNamed.text ++ (including ['b']).text

theorem missingInclude_exact_partlyNamed
    : { directive := vacant, start := 18, stop := 35 } ∈ findDirectives partlyNamed ∧
        (Parameters.parse vacant.parameters).name = none ∧
        ((expand (nestedFiles 2) false ∅ partlyNamed).exec {}).2.report.unnamed
          = [(vacant.text, SkipReason.missingInclude.text)] ∧
        ((expand (nestedFiles 2) false ∅ partlyNamed).exec {}).1.isOk = false ∧
        (passage (nestedFiles 2) ∅ partlyNamed).met
          = [including ['a'], including ['b'], vacant, emptilyNamed] ∧
        LiesIn (nestedFiles 2) ∅ partlyNamed (including ['b']) := by
  have hfound : { directive := vacant, start := 18, stop := 35 } ∈ findDirectives partlyNamed := by
    decide +kernel
  have hpassage : passage (nestedFiles 2) ∅ partlyNamed
      = { met := [including ['a'], including ['b'], vacant, emptilyNamed], succeeds := false } := by
    decide +kernel
  obtain ⟨hnames, hruns⟩ := missingInclude_exact
  obtain ⟨hunnamed, hsucceeds, _, hlies⟩ := hruns (nestedFiles 2) false ∅ partlyNamed {}
  obtain ⟨after, _, hafter, _, _, hblank⟩ := hnames partlyNamed _ hfound
  rw [hpassage] at hunnamed hsucceeds hlies
  refine ⟨hfound, ?_, ?_, hsucceeds, by rw [hpassage], hlies _ (by simp)⟩
  . have hafter : Parameters.keyword ++ [' ', '\u00a0'] = Parameters.keyword ++ after := hafter
    rw [hblank, ← List.append_cancel_left hafter]
    exact List.all_eq_true.mp (by decide)
  . have hfilter : [including ['a'], including ['b'], vacant, emptilyNamed].filter (·.isVacant)
        = [vacant] := by decide +kernel
    rw [hfilter] at hunnamed
    exact hunnamed

end Expansion
end Transclusion
