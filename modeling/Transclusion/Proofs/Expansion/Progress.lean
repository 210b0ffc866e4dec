import Transclusion.Proofs.Expansion.Steps

/-!
This module contains what an expansion does to the progress whatever becomes of it: reports only grow
(`GrowsReport`), nothing is included beyond the limit (`Within`), and included content leaves the
regions alone (`SameRegions`).
-/

namespace Transclusion
namespace Expansion

structure Admits (R : Progress → Progress → Prop) : Prop where
  refl : ∀ p, R p p
  trans : ∀ p q s, R p q → R q s → R p s
  record : ∀ p r, R p { p with log := p.log ++ [r] }
  skip : ∀ p directive reason, R p { p with report := p.report.recordSkip directive reason }
  variablesFile : ∀ p name, R p { p with report := p.report.recordVariablesFile name }
  warning : ∀ p message, R p { p with report := p.report.addWarning message }

theorem Admits.closed {R : Progress → Progress → Prop} (h : Admits R)
    : Closed fun _ r => r.Moves R where
  pure _ := h.refl
  throw _ := h.refl
  bind := Run.Moves.bind h.trans
  log _ _ p := h.record p _
  skip directive reason p := h.skip p directive reason
  variablesFile name p := h.variablesFile p name
  warning message p := h.warning p message

end Expansion

structure Report.Grows (r s : Report) : Prop where
  includesResolved : r.includesResolved <+: s.includesResolved
  variablesFilesLoaded : r.variablesFilesLoaded <+: s.variablesFilesLoaded
  skipped : r.skipped <+: s.skipped
  warnings : r.warnings <+: s.warnings
  maxDepthReached : r.maxDepthReached ≤ s.maxDepthReached

namespace Report.Grows

variable {r s t : Report}

theorem refl (r : Report) : r.Grows r where
  includesResolved := List.prefix_rfl
  variablesFilesLoaded := List.prefix_rfl
  skipped := List.prefix_rfl
  warnings := List.prefix_rfl
  maxDepthReached := Nat.le_refl _

theorem trans (h : r.Grows s) (h' : s.Grows t) : r.Grows t where
  includesResolved := h.includesResolved.trans h'.includesResolved
  variablesFilesLoaded := h.variablesFilesLoaded.trans h'.variablesFilesLoaded
  skipped := h.skipped.trans h'.skipped
  warnings := h.warnings.trans h'.warnings
  maxDepthReached := Nat.le_trans h.maxDepthReached h'.maxDepthReached

end Report.Grows

namespace Expansion

def GrowsReport (p q : Progress) : Prop :=
  p.report.Grows q.report

theorem admits_growsReport : Admits GrowsReport where
  refl p := Report.Grows.refl p.report
  trans _ _ _ := Report.Grows.trans
  record p _ := Report.Grows.refl p.report
  skip p _ _ :=
    { Report.Grows.refl p.report with skipped := List.prefix_append _ _ }
  variablesFile p _ :=
    { Report.Grows.refl p.report with variablesFilesLoaded := List.prefix_append _ _ }
  warning p _ := { Report.Grows.refl p.report with warnings := List.prefix_append _ _ }

theorem regions_growsReport (env : Environment) (nested : Bool)
    : Regions (fun _ r => r.Moves GrowsReport) env nested := by
  intro _
  constructor
  . intro p
    exact Report.Grows.refl p.report
  . intro p
    exact { Report.Grows.refl p.report with }

theorem content_growsReport (env : Environment) (levels : Nat) (chain : List Text) (i : Inclusion)
    : (content env levels chain i).Moves GrowsReport := by
  apply admits_growsReport.closed.content _ env (Nat.le_refl _)
  intro name depth _ p
  exact {
    Report.Grows.refl p.report with
    includesResolved := List.prefix_append _ _
    maxDepthReached := Nat.le_max_left _ _ }

def Within (depth : Nat) (p q : Progress) : Prop :=
  q.report.maxDepthReached ≤ max p.report.maxDepthReached depth

theorem admits_within (depth : Nat) : Admits (Within depth) where
  refl _ := Nat.le_max_left _ _
  trans p q s h h' := by
    unfold Within at *
    omega
  record _ _ := Nat.le_max_left _ _
  skip _ _ _ := Nat.le_max_left _ _
  variablesFile _ _ := Nat.le_max_left _ _
  warning _ _ := Nat.le_max_left _ _

theorem regions_within (depth : Nat) (env : Environment) (nested : Bool)
    : Regions (fun _ r => r.Moves (Within depth)) env nested := by
  intro _
  constructor
  . intro p
    exact Nat.le_max_left _ _
  . intro p
    exact Nat.le_max_left _ _

theorem recordInclude_within {depth deepest : Nat} (h : depth ≤ deepest) (name : Text)
    : (updateReport (·.recordInclude name depth)).Moves (Within deepest) := by
  intro p
  change max p.report.maxDepthReached depth ≤ max p.report.maxDepthReached deepest
  omega

def SameIncludes (p q : Progress) : Prop :=
  q.report.includesResolved = p.report.includesResolved

theorem admits_sameIncludes : Admits SameIncludes where
  refl _ := rfl
  trans _ _ _ h h' := h'.trans h
  record _ _ := rfl
  skip _ _ _ := rfl
  variablesFile _ _ := rfl
  warning _ _ := rfl

theorem regions_sameIncludes (env : Environment) (nested : Bool)
    : Regions (fun _ r => r.Moves SameIncludes) env nested := by
  intro _
  constructor
  . intro _
    rfl
  . intro _
    rfl

def SameRemoved (p q : Progress) : Prop :=
  q.report.regionsRemoved = p.report.regionsRemoved

theorem admits_sameRemoved : Admits SameRemoved where
  refl _ := rfl
  trans _ _ _ h h' := h'.trans h
  record _ _ := rfl
  skip _ _ _ := rfl
  variablesFile _ _ := rfl
  warning _ _ := rfl

theorem expanded_sameRemoved (env : Environment) (nested : Bool) (scope : Scope) (text : Text)
    : (expanded env nested scope text).Moves SameRemoved := by
  apply admits_sameRemoved.closed.expanded _ _ (Nat.le_refl _)
  . intro _
    constructor
    . intro _
      rfl
    . intro _
      rfl
  . intro _ _ _ _
    rfl

structure SameRegions (p q : Progress) : Prop where
  idsDrawn : q.idsDrawn = p.idsDrawn
  regionsInserted : q.report.regionsInserted = p.report.regionsInserted

theorem SameRegions.refl (p : Progress) : SameRegions p p :=
  ⟨rfl, rfl⟩

theorem admits_sameRegions : Admits SameRegions where
  refl := SameRegions.refl
  trans _ _ _ h h' :=
    ⟨h'.idsDrawn.trans h.idsDrawn, h'.regionsInserted.trans h.regionsInserted⟩
  record p _ := { SameRegions.refl p with }
  skip p _ _ := { SameRegions.refl p with }
  variablesFile p _ := { SameRegions.refl p with }
  warning p _ := { SameRegions.refl p with }

theorem content_sameRegions (env : Environment) (levels : Nat) (chain : List Text) (i : Inclusion)
    : (content env levels chain i).Moves SameRegions := by
  apply admits_sameRegions.closed.content _ env (Nat.le_refl _)
  intro _ _ _ p
  exact { SameRegions.refl p with }

end Expansion
end Transclusion
