import Transclusion.Preprocess
import Transclusion.Proofs.Expansion.Chain
import Transclusion.Proofs.Expansion.Composition

/-!
This module contains what the limit on the depth of inclusions does: under a smaller limit a run is
the same one, or it ends where the other one goes deeper than that (`Truncates`). From this follows
that the depth that a run reaches is the exact threshold (`expand_exactLimit`).
-/

namespace Transclusion
namespace Expansion

variable {α β ι : Type}

def Trail (env : Environment) (scope : Scope) (text : Text) (names : List Text) : Prop :=
  ∃ chain i, Leads env scope text chain i ∧
    chain.map (fun d => (Parameters.parse d.parameters).name) = names.map some

structure EndedByLimit (depth : Nat) (T : List Text → Prop) (outcome : Except Failure α × Progress)
    (report : Report) : Prop where
  failure : ∃ names, outcome.1 = .error (.circularInclude names depth) ∧ names.length = depth + 1 ∧
    T names
  grows : outcome.2.report.Grows report
  deeper : depth < report.maxDepthReached

/-- Both runs are the same and no deeper than `depth`, or the first one ends because of the limit and
the second one goes deeper. -/
def Truncates (depth : Nat) (T : List Text → Prop) (short long : Run α) : Prop :=
  ∀ p, (short.exec p = long.exec p ∧ Within depth p (long.exec p).2) ∨
    EndedByLimit depth T (short.exec p) (long.exec p).2.report

namespace Truncates

variable {depth : Nat} {T : List Text → Prop}

theorem refl {r : Run α} (h : r.Moves (Within depth)) : Truncates depth T r r := by
  intro p
  exact .inl ⟨rfl, h p⟩

theorem mono {U : List Text → Prop} (hTU : ∀ names, T names → U names) {short long : Run α}
    (h : Truncates depth T short long) : Truncates depth U short long := by
  intro p
  rcases h p with h | ⟨⟨names, hfail, hlength, hT⟩, hgrows, hdeeper⟩
  . exact .inl h
  . exact .inr ⟨⟨names, hfail, hlength, hTU names hT⟩, hgrows, hdeeper⟩

-- Where the first run has ended, the second one may go on; its report only grows.
theorem bind {r s : Run α} {f g : α → Run β} (h : Truncates depth T r s)
    (hgrows : ∀ a, (g a).Moves GrowsReport)
    (hnext : ∀ a p q, s.exec p = (.ok a, q) → Truncates depth T (f a) (g a))
    : Truncates depth T (r >>= f) (s >>= g) := by
  intro p
  rcases h p with ⟨hsame, hdepth⟩ | ⟨⟨names, hfail, hlength, hT⟩, hshort, hdeeper⟩
  . rw [Run.exec_bind, Run.exec_bind, hsame]
    cases hs : s.exec p with
    | mk outcome q =>
      rw [hs] at hdepth
      cases outcome with
      | error e => exact .inl ⟨rfl, hdepth⟩
      | ok a =>
        dsimp only at hdepth ⊢
        rcases hnext a p q hs q with ⟨hsame, hdepth'⟩ | hended
        . left
          exact ⟨hsame, (admits_within depth).trans _ _ _ hdepth hdepth'⟩
        . exact .inr hended
  . right
    have hlong : GrowsReport (s.exec p).2 ((s >>= g).exec p).2 :=
      Run.Moves.rest (fun p => Report.Grows.refl p.report) hgrows p
    have hr : (r >>= f).exec p = (.error (.circularInclude names depth), (r.exec p).2) := by
      apply Run.exec_bind_of_error
      rw [← hfail]
    rw [hr]
    have := hlong.maxDepthReached
    exact ⟨⟨names, rfl, hlength, hT⟩, hshort.trans hlong, by omega⟩

theorem mapM {l : List ι} {f g : ι → Run α} (hgrows : ∀ i, (g i).Moves GrowsReport)
    (h : ∀ i ∈ l, Truncates depth T (f i) (g i)) : Truncates depth T (l.mapM f) (l.mapM g) := by
  induction l with
  | nil =>
    apply refl
    exact (admits_within depth).closed.pure []
  | cons i l ih =>
    rw [List.mapM_cons, List.mapM_cons]
    apply bind (h i (by simp))
    . intro a
      apply admits_growsReport.closed.bind
      . exact admits_growsReport.closed.mapM fun j _ => hgrows j
      . intro as
        apply admits_growsReport.closed.pure
    . intro a _ _ _
      apply bind (ih fun j hj => h j (by simp [hj]))
      . intro as
        apply admits_growsReport.closed.pure
      . intro as _ _ _
        apply refl
        apply (admits_within depth).closed.pure

end Truncates

def ContentTrail (env : Environment) (i : Inclusion) (names : List Text) : Prop :=
  names = [i.name] ∨
    ∃ file later, substituted env i = .ok file ∧ Trail env i.scope file later ∧
      names = i.name :: later

theorem Trail.of_includes {env : Environment} {scope : Scope} {text : Text} {d : Directive}
    {i : Inclusion} (hd : d ∈ directives text) (hi : Includes env.library scope d i)
    {names : List Text} (h : ContentTrail env i names) : Trail env scope text names := by
  rcases h with rfl | ⟨file, later, hfile, ⟨chain, j, hchain, hnames⟩, rfl⟩
  . refine ⟨[d], i, .last hd hi, ?_⟩
    simp [hi.name]
  . refine ⟨d :: chain, j, .step hd hi hfile hchain, ?_⟩
    simp [hi.name, hnames]

def After (chain : List Text) (T : List Text → Prop) (names : List Text) : Prop :=
  ∃ later, names = chain ++ later ∧ T later

section Truncated

variable {env : Environment} {depth : Nat} {short long : Expander}

theorem expandDirective_truncates (chain : List Text) (hgrows : ∀ i, (long i).Moves GrowsReport)
    (h : ∀ i, Truncates depth (After chain (ContentTrail env i))
      (short i) (long i)) {nested : Bool} {scope : Scope} {text : Text} {d : Directive}
    (hd : d ∈ directives text)
    : Truncates depth (After chain (Trail env scope text))
        (expandDirective env short nested scope d) (expandDirective env long nested scope d) := by
  unfold expandDirective
  apply Truncates.bind
  . apply Truncates.refl
    exact (admits_within depth).closed.resolve env.library scope d
  . intro target
    exact admits_growsReport.closed.expandTarget (regions_growsReport env nested) hgrows d target
  . intro target p q htarget
    cases target with
    | none =>
      apply Truncates.refl
      exact (admits_within depth).closed.pure _
    | some i =>
      have hi := includes_of_resolve htarget
      unfold expandTarget
      apply Truncates.bind
      . apply Truncates.mono _ (h i)
        intro names h
        obtain ⟨later, hnames, hlater⟩ := h
        exact ⟨later, hnames, .of_includes hd hi hlater⟩
      . intro content
        exact admits_growsReport.closed.insertContent (regions_growsReport env nested) d i.name content
      . intro content _ _ _
        apply Truncates.refl
        exact (admits_within depth).closed.insertContent (regions_within depth env nested) d i.name
          content

theorem expandWith_truncates (chain : List Text) (hgrows : ∀ i, (long i).Moves GrowsReport)
    (h : ∀ i, Truncates depth (After chain (ContentTrail env i))
      (short i) (long i)) (nested : Bool) (scope : Scope) (text : Text)
    : Truncates depth (After chain (Trail env scope text))
        (expandWith env short nested scope text) (expandWith env long nested scope text) := by
  unfold expandWith
  apply Truncates.bind
  . apply Truncates.mapM
    . intro piece
      exact admits_growsReport.closed.expandPiece (regions_growsReport env nested) hgrows scope piece
    . intro piece hpiece
      have hd : piece.2 ∈ directives text := by
        rw [directives_eq]
        exact List.mem_map_of_mem hpiece
      unfold expandPiece
      apply Truncates.bind (expandDirective_truncates chain hgrows h hd)
      . intro block
        apply admits_growsReport.closed.pure
      . intro block _ _ _
        apply Truncates.refl
        apply (admits_within depth).closed.pure
  . intro pieces
    apply admits_growsReport.closed.pure
  . intro pieces _ _ _
    apply Truncates.refl
    apply (admits_within depth).closed.pure

theorem expandFile_truncates (chain : List Text) (hgrows : ∀ i, (long i).Moves GrowsReport)
    (h : ∀ i, Truncates depth (After chain (ContentTrail env i))
      (short i) (long i)) (i : Inclusion)
    : Truncates depth (After chain fun later => ∃ file, substituted env i = .ok file ∧
          Trail env i.scope file later)
        (expandFile env short i) (expandFile env long i) := by
  unfold expandFile
  apply Truncates.bind
  . apply Truncates.refl
    apply (admits_within depth).closed.ofExcept
  . intro text
    apply Run.Moves.bind admits_growsReport.trans
    . exact admits_growsReport.closed.expandWith (regions_growsReport env true) hgrows i.scope text
    . intro expanded
      apply admits_growsReport.closed.pure
  . intro file p q hfile
    rw [Run.exec_ofExcept, Prod.mk.injEq] at hfile
    apply Truncates.bind
    . apply Truncates.mono _ (expandWith_truncates chain hgrows h true i.scope file)
      intro names h
      obtain ⟨later, hnames, hlater⟩ := h
      exact ⟨later, hnames, file, hfile.1, hlater⟩
    . intro expanded
      apply admits_growsReport.closed.pure
    . intro expanded _ _ _
      apply Truncates.refl
      apply (admits_within depth).closed.pure

end Truncated

def Environment.limited (env : Environment) (depth : Nat) : Environment :=
  { env with
    settings := {
      env.settings with
      maxDepth := depth
      nestingLimit := max env.settings.nestingLimit depth } }

theorem levels_limited (env : Environment) (depth : Nat)
    : (env.limited depth).settings.levels = depth := by
  unfold Settings.levels Environment.limited
  dsimp only
  omega

theorem expandFile_limited (env : Environment) (depth : Nat)
    : expandFile (env.limited depth) = expandFile env := by rfl

theorem expandWith_limited (env : Environment) (depth : Nat)
    : expandWith (env.limited depth) = expandWith env := by rfl

theorem length_lt_maxDepthReached_content_succ (env : Environment) (levels : Nat) (chain : List Text)
    (i : Inclusion) (p : Progress)
    : chain.length < ((content env (levels + 1) chain i).exec p).2.report.maxDepthReached := by
  unfold content
  rw [Run.exec_bind_of_ok (exec_updateReport _ p)]
  have hfile : (expandFile env (content env levels (chain ++ [i.name])) i).Moves GrowsReport :=
    admits_growsReport.closed.expandFile (content_growsReport _ _ _) i
  have := (hfile { p with report := p.report.recordInclude i.name (chain.length + 1) }).maxDepthReached
  dsimp only [Report.recordInclude] at this ⊢
  omega

theorem content_truncates (env : Environment) {depth other levels levels' : Nat} {chain : List Text}
    (hdepth : chain.length + levels = depth) (hlevels : levels < levels') (i : Inclusion)
    : Truncates depth (After chain (ContentTrail env i))
        (content (env.limited depth) levels chain i) (content (env.limited other) levels' chain i) := by
  induction levels generalizing levels' chain i with
  | zero =>
    obtain ⟨levels', rfl⟩ := Nat.exists_eq_succ_of_ne_zero (Nat.ne_zero_of_lt hlevels)
    intro p
    right
    refine ⟨⟨chain ++ [i.name], rfl, by simp [← hdepth], [i.name], rfl, .inl rfl⟩, ?_, ?_⟩
    . exact content_growsReport _ _ _ i p
    . rw [← hdepth]
      exact length_lt_maxDepthReached_content_succ ..
  | succ levels ih =>
    obtain ⟨levels', rfl⟩ := Nat.exists_eq_succ_of_ne_zero (Nat.ne_zero_of_lt hlevels)
    unfold content
    apply Truncates.bind
    . apply Truncates.refl
      exact recordInclude_within (by omega) i.name
    . intro _
      exact admits_growsReport.closed.expandFile (content_growsReport _ _ _) i
    . intro _ _ _ _
      rw [expandFile_limited, expandFile_limited]
      apply Truncates.mono _ (expandFile_truncates (chain ++ [i.name]) (content_growsReport _ _ _) _ i)
      . intro names h
        obtain ⟨later, hnames, file, hfile, hlater⟩ := h
        refine ⟨i.name :: later, ?_, .inr ⟨file, later, hfile, hlater, rfl⟩⟩
        rw [hnames, List.append_assoc]
        rfl
      . intro j
        apply ih
        . rw [List.length_append, List.length_singleton]
          omega
        . omega

theorem expand_truncates (env : Environment) {depth other : Nat} (h : depth < other) (nested : Bool)
    (scope : Scope) (text : Text)
    : Truncates depth (Trail env scope text) (expand (env.limited depth) nested scope text)
        (expand (env.limited other) nested scope text) := by
  unfold expand expanded
  rw [levels_limited, levels_limited, expandWith_limited, expandWith_limited]
  apply Truncates.bind
  . apply Truncates.mono _ (expandWith_truncates [] (content_growsReport _ _ _) _ nested scope text)
    . intro names h
      obtain ⟨later, hnames, hlater⟩ := h
      rw [hnames]
      exact hlater
    . intro i
      exact content_truncates env (Nat.zero_add _) h i
  . intro e
    apply admits_growsReport.closed.pure
  . intro e _ _ _
    apply Truncates.refl
    apply (admits_within depth).closed.pure

def runLimited (env : Environment) (nested : Bool) (scope : Scope) (text document : Text)
    (drawn depth : Nat) : Except Failure Text × Progress :=
  Preprocess.start document drawn (expand (env.limited depth) nested scope text)

section Limited

variable (env : Environment) (nested : Bool) (scope : Scope) (text document : Text) (drawn : Nat)

theorem maxDepthReached_runLimited_le (depth : Nat)
    : (runLimited env nested scope text document drawn depth).2.report.maxDepthReached ≤ depth := by
  have : (expand (env.limited depth) nested scope text).Moves (Within depth) := by
    unfold expand
    apply Run.Moves.bind (admits_within depth).trans
    . apply (admits_within depth).closed.expanded (regions_within depth _ nested)
        (fun name _ h => recordInclude_within h name)
      exact Nat.le_of_eq (levels_limited env depth)
    . intro e
      apply (admits_within depth).closed.pure
  have := this { report := { document }, idsDrawn := drawn }
  unfold Within at this
  unfold runLimited Preprocess.start
  dsimp only at this
  omega

theorem runLimited_of_lt {depth other : Nat} (h : depth < other)
    : (runLimited env nested scope text document drawn depth
            = runLimited env nested scope text document drawn other ∧
          (runLimited env nested scope text document drawn other).2.report.maxDepthReached ≤ depth) ∨
        EndedByLimit depth (Trail env scope text)
          (runLimited env nested scope text document drawn depth)
          (runLimited env nested scope text document drawn other).2.report := by
  rcases expand_truncates env h nested scope text { report := { document }, idsDrawn := drawn } with
    ⟨hsame, hwithin⟩ | hended
  . left
    refine ⟨hsame, ?_⟩
    unfold Within at hwithin
    unfold runLimited Preprocess.start
    dsimp only at hwithin
    omega
  . exact .inr hended

/-- The limit is an exact threshold: a run that succeeds needs the depth that it reaches, and above that
the limit makes no difference. -/
structure ExactLimit (run : Nat → Except Failure Text × Progress) (T : List Text → Prop) : Prop where
  within : ∀ depth, (run depth).2.report.maxDepthReached ≤ depth
  same : ∀ depth other result, (run depth).1 = .ok result →
    (run depth).2.report.maxDepthReached ≤ other → run other = run depth
  ended : ∀ depth other result, (run depth).1 = .ok result →
    other < (run depth).2.report.maxDepthReached →
      EndedByLimit other T (run other) (run depth).2.report
  circular : ∀ depth other names limit, (run depth).1 = .error (.circularInclude names limit) →
    other < depth → ∃ names' limit', (run other).1 = .error (.circularInclude names' limit')

theorem expand_exactLimit
    : ExactLimit (runLimited env nested scope text document drawn) (Trail env scope text) where
  within := maxDepthReached_runLimited_le env nested scope text document drawn
  same depth other result hresult hother := by
    rcases Nat.lt_trichotomy other depth with hlt | heq | hgt
    . rcases runLimited_of_lt env nested scope text document drawn hlt with ⟨hsame, _⟩ | hended
      . exact hsame
      . have := hended.deeper
        omega
    . rw [heq]
    . rcases runLimited_of_lt env nested scope text document drawn hgt with ⟨hsame, _⟩ | hended
      . exact hsame.symm
      . obtain ⟨names, hfail, _⟩ := hended.failure
        simp [hresult] at hfail
  ended depth other result hresult hother := by
    have hwithin := maxDepthReached_runLimited_le env nested scope text document drawn depth
    rcases runLimited_of_lt env nested scope text document drawn (Nat.lt_of_lt_of_le hother hwithin) with
      ⟨_, hdepth⟩ | hended
    . omega
    . exact hended
  circular depth other names limit hfail hother := by
    rcases runLimited_of_lt env nested scope text document drawn hother with ⟨hsame, _⟩ | hended
    . exact ⟨names, limit, by rw [hsame, hfail]⟩
    . obtain ⟨names', hfail', _⟩ := hended.failure
      exact ⟨names', other, hfail'⟩

end Limited

theorem expand_exactLimit_nestedFiles
    : let run := runLimited (nestedFiles 2) false ∅ (including ['a']).text ['d'] 0
      let T := Trail (nestedFiles 2) ∅ (including ['a']).text
      (run 2).1 = .ok ("<!-- include a -->\n<!-- included \"a\" \"I\" -->\n\n" ++
            "  <!-- include b -->\n    hi\n<!-- / included \"a\" \"I\" -->\n") ∧
        (run 2).2.report.maxDepthReached = 2 ∧
        (∀ depth, 2 ≤ depth → run depth = run 2) ∧
        (∃ first second, (run 1).1 = .error (.circularInclude [first, second] 1) ∧ T [first, second]) ∧
        ∃ first, (run 0).1 = .error (.circularInclude [first] 0) ∧ T [first] := by
  intro run T
  have hlimit : ExactLimit run T :=
    expand_exactLimit (nestedFiles 2) false ∅ (including ['a']).text ['d'] 0
  have hresult : (run 2).1 = .ok ("<!-- include a -->\n<!-- included \"a\" \"I\" -->\n\n" ++
      "  <!-- include b -->\n    hi\n<!-- / included \"a\" \"I\" -->\n") :=
    eq_ok_of_toOption (by decide +kernel)
  have hdepth : (run 2).2.report.maxDepthReached = 2 := by decide +kernel
  refine ⟨hresult, hdepth, ?_, ?_, ?_⟩
  . intro depth h
    exact hlimit.same 2 depth _ hresult (by omega)
  . obtain ⟨names, hfail, hlength, hT⟩ := (hlimit.ended 2 1 _ hresult (by omega)).failure
    obtain ⟨first, second, rfl⟩ := List.length_eq_two.mp hlength
    exact ⟨first, second, hfail, hT⟩
  . obtain ⟨names, hfail, hlength, hT⟩ := (hlimit.ended 2 0 _ hresult (by omega)).failure
    obtain ⟨first, rfl⟩ := List.length_eq_one_iff.mp hlength
    exact ⟨first, hfail, hT⟩

end Expansion
end Transclusion
