import Transclusion.Proofs.Expansion.Run

/-!
This module contains what a directive includes (`Includes`): the file that its name leads to, with
the scope that its own bindings and those of its variables file make of the inherited one; and when it
is skipped (`Skips`). That a directive is resolved comes to one of these two, or to a failure, whatever
has happened before (`resolve_outcome`).
-/

namespace Transclusion

def Library.variables? (library : Library) (name : Text) : Option Scope :=
  (library.index.get? name).bind fun path => (library.readVariables path).toOption

namespace Expansion

def layers (library : Library) (ps : Parameters) : List Scope :=
  ps.bindings :: (ps.variablesFile.bind library.variables?).toList

def Unguarded (condition : Option Text) : Prop :=
  ∀ c ∈ condition, ∀ left right, sides? c = some (left, right) → Text.strip left = Text.strip right

structure Includes (library : Library) (inherited : Scope) (d : Directive) (i : Inclusion) : Prop where
  name : (Parameters.parse d.parameters).name = some i.name
  path : library.index.get? i.name = some i.path
  condition : Unguarded (Parameters.parse d.parameters).condition
  readable : ∀ file ∈ (Parameters.parse d.parameters).variablesFile, (library.variables? file).isSome
  scope : i.scope = (layers library (Parameters.parse d.parameters)).foldl Scope.merge inherited

inductive Skips (library : Library) (d : Directive) : Prop
  | missingInclude : (Parameters.parse d.parameters).name = none → Skips library d
  | conditionFalse {name : Text} :
    (Parameters.parse d.parameters).name = some name → (library.index.get? name).isSome →
      (∀ file ∈ (Parameters.parse d.parameters).variablesFile, (library.variables? file).isSome) →
      ¬ Unguarded (Parameters.parse d.parameters).condition → Skips library d

def holds (condition : Option Text) : Bool :=
  match condition.bind sides? with
  | some (left, right) => Text.strip left == Text.strip right
  | none => true

def namedVariables (library : Library) (name : Text) : Except Failure Scope :=
  match library.index.get? name with
  | none => .error (.includeNotFound name "variables" ∅)
  | some path => library.readVariables path

def boundScope (library : Library) (inherited : Scope) (ps : Parameters) : Except Failure Scope :=
  match ps.variablesFile with
  | none => .ok (inherited.merge ps.bindings)
  | some file => (namedVariables library file).map (inherited.merge ps.bindings).merge

def target (library : Library) (inherited : Scope) (d : Directive)
    : Except Failure (Option Inclusion) := do
  let ps := Parameters.parse d.parameters
  match ps.name with
  | none => return none
  | some name =>
    let scope ← boundScope library inherited ps
    match library.index.get? name with
    | none => .error (.includeNotFound name "include" ((∅ : Context).insert "directive" (.text d.text)))
    | some path => return if holds ps.condition then some { name, path, scope } else none

theorem holds_eq_true_iff {condition : Option Text} : holds condition = true ↔ Unguarded condition := by
  unfold holds Unguarded
  cases condition with
  | none => simp
  | some c =>
    cases hsides : sides? c with
    | none => simp [hsides]
    | some sides =>
      obtain ⟨left, right⟩ := sides
      simp [hsides]

theorem conditionHolds_outcome (d : Directive) (condition : Option Text) (p : Progress)
    : ((conditionHolds d condition).exec p).1 = .ok (holds condition) := by
  unfold conditionHolds holds
  cases condition with
  | none => rfl
  | some c =>
    dsimp only [Option.bind_some]
    cases sides? c with
    | none => rfl
    | some sides => rfl

theorem loadVariables_outcome (library : Library) (name : Text) (p : Progress)
    : ((loadVariables library name).exec p).1 = namedVariables library name := by
  unfold loadVariables namedVariables
  cases library.index.get? name with
  | none => rfl
  | some path => rw [Run.exec_bind_of_ok (exec_updateReport ..), Run.exec_ofExcept]

theorem localScope_outcome (library : Library) (inherited : Scope) (ps : Parameters) (p : Progress)
    : ((localScope library inherited ps).exec p).1 = boundScope library inherited ps := by
  unfold localScope boundScope
  cases ps.variablesFile with
  | none => rfl
  | some file =>
    dsimp only
    rw [Run.outcome_bind (fun vars => .ok ((inherited.merge ps.bindings).merge vars)) fun _ _ => rfl,
      loadVariables_outcome]
    cases namedVariables library file <;> rfl

theorem resolve_outcome (library : Library) (inherited : Scope) (d : Directive) (p : Progress)
    : ((resolve library inherited d).exec p).1 = target library inherited d := by
  unfold resolve target
  dsimp only
  cases (Parameters.parse d.parameters).name with
  | none => rfl
  | some name =>
    dsimp only
    rw [← localScope_outcome library inherited _ p]
    apply Run.outcome_bind
    intro scope q
    rw [Run.exec_bind_of_ok (exec_log ..)]
    cases library.index.get? name with
    | none => rfl
    | some path =>
      dsimp only
      rw [Run.outcome_bind fun holds => .ok (if holds then some { name, path, scope } else none),
        conditionHolds_outcome]
      . rfl
      . intro holds q
        cases holds <;> rfl

theorem toOption_namedVariables (library : Library) (name : Text)
    : (namedVariables library name).toOption = library.variables? name := by
  unfold namedVariables Library.variables?
  cases library.index.get? name <;> rfl

theorem boundScope_eq_ok_iff {library : Library} {inherited scope : Scope} {ps : Parameters}
    : boundScope library inherited ps = .ok scope ↔
        (∀ file ∈ ps.variablesFile, (library.variables? file).isSome) ∧
          scope = (layers library ps).foldl Scope.merge inherited := by
  unfold boundScope layers
  cases ps.variablesFile with
  | none =>
    rw [Except.ok.injEq, eq_comm]
    simp
  | some file =>
    dsimp only
    rw [Option.bind_some, ← toOption_namedVariables]
    cases hvars : namedVariables library file with
    | error e => simp [Except.map, Except.toOption, ← toOption_namedVariables, hvars]
    | ok vars =>
      simp only [Except.map, Except.toOption, Option.mem_def, Option.some.injEq, forall_eq',
        ← toOption_namedVariables, hvars, Except.ok.injEq]
      simpa using eq_comm

theorem target_of_name {library : Library} {inherited : Scope} {d : Directive} {name : Text}
    (h : (Parameters.parse d.parameters).name = some name)
    : target library inherited d
        =
      match boundScope library inherited (Parameters.parse d.parameters), library.index.get? name with
      | .error e, _ => .error e
      | .ok _, none =>
        .error (.includeNotFound name "include" ((∅ : Context).insert "directive" (.text d.text)))
      | .ok scope, some path =>
        .ok (if holds (Parameters.parse d.parameters).condition then some { name, path, scope }
          else none) := by
  unfold target
  dsimp only
  rw [h]
  dsimp only
  cases boundScope library inherited (Parameters.parse d.parameters) with
  | error e => rfl
  | ok scope => cases library.index.get? name <;> rfl

theorem target_eq_some_iff {library : Library} {inherited : Scope} {d : Directive} {i : Inclusion}
    : target library inherited d = .ok (some i) ↔ Includes library inherited d i := by
  constructor
  . intro h
    cases hname : (Parameters.parse d.parameters).name with
    | none => simp [target, hname, pure, Except.pure] at h
    | some name =>
      rw [target_of_name hname] at h
      split at h
      next => simp at h
      next => simp at h
      next scope path hscope hpath =>
        obtain ⟨hreadable, hscope⟩ := boundScope_eq_ok_iff.mp hscope
        split at h
        next hholds =>
          simp only [Except.ok.injEq, Option.some.injEq] at h
          rw [← h]
          exact ⟨hname, hpath, holds_eq_true_iff.mp hholds, hreadable, hscope⟩
        next => simp at h
  . intro ⟨hname, hpath, hcondition, hreadable, hscope⟩
    rw [target_of_name hname, boundScope_eq_ok_iff.mpr ⟨hreadable, hscope⟩, hpath]
    simp [holds_eq_true_iff.mpr hcondition]

theorem target_eq_none_iff {library : Library} {inherited : Scope} {d : Directive}
    : target library inherited d = .ok none ↔ Skips library d := by
  constructor
  . intro h
    cases hname : (Parameters.parse d.parameters).name with
    | none => exact .missingInclude hname
    | some name =>
      rw [target_of_name hname] at h
      split at h
      next => simp at h
      next => simp at h
      next scope path hscope hpath =>
        split at h
        next => simp at h
        next hholds =>
          rw [holds_eq_true_iff] at hholds
          exact .conditionFalse hname (by simp [hpath]) (boundScope_eq_ok_iff.mp hscope).1 hholds
  . intro h
    cases h with
    | missingInclude hname => simp [target, hname, pure, Except.pure]
    | conditionFalse hname hpath hreadable hcondition =>
      obtain ⟨path, hpath⟩ := Option.isSome_iff_exists.mp hpath
      rw [target_of_name hname, boundScope_eq_ok_iff.mpr ⟨hreadable, rfl⟩, hpath]
      simp [holds_eq_true_iff, hcondition]

theorem error_of_boundScope {library : Library} {inherited : Scope} {ps : Parameters} {e : Failure}
    (h : boundScope library inherited ps = .error e)
    : (∃ name role context, e = .includeNotFound name role context) ∨
        ∃ path, library.readVariables path = .error e := by
  unfold boundScope namedVariables at h
  split at h
  next => simp at h
  next file _ =>
    split at h
    next =>
      left
      simp only [Except.map, Except.error.injEq] at h
      exact ⟨_, _, _, h.symm⟩
    next path _ =>
      right
      refine ⟨path, ?_⟩
      cases hread : library.readVariables path with
      | error e' => simpa [hread, Except.map] using h
      | ok vars => simp [hread, Except.map] at h

theorem error_of_target {library : Library} {inherited : Scope} {d : Directive} {e : Failure}
    (h : target library inherited d = .error e)
    : (∃ name role context, e = .includeNotFound name role context) ∨
        ∃ path, library.readVariables path = .error e := by
  cases hname : (Parameters.parse d.parameters).name with
  | none => simp [target, hname, pure, Except.pure] at h
  | some name =>
    rw [target_of_name hname] at h
    split at h
    next hscope =>
      rw [Except.error.injEq] at h
      rw [h] at hscope
      exact error_of_boundScope hscope
    next =>
      simp only [Except.error.injEq] at h
      exact .inl ⟨_, _, _, h.symm⟩
    next => simp at h

theorem includes_of_resolve {library : Library} {inherited : Scope} {d : Directive} {i : Inclusion}
    {p q : Progress} (h : (resolve library inherited d).exec p = (.ok (some i), q))
    : Includes library inherited d i := by
  rw [← target_eq_some_iff, ← resolve_outcome library inherited d p, h]

end Expansion
end Transclusion
