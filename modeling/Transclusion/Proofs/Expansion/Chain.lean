import Transclusion.Proofs.Expansion.Progress
import Transclusion.Proofs.Expansion.Resolve
import Transclusion.Proofs.Scope

/-!
This module contains the chains of directives along which files are included (`Leads`). The scope of a
file is made of what the directives of its chain bind, and of nothing else (`Leads.scope_eq`).
-/

namespace Transclusion

theorem map_directive_locate (start : Nat) (pieces : List (Text × Directive))
    : (locate start pieces).map (·.directive) = pieces.map Prod.snd := by
  induction pieces generalizing start with
  | nil => rfl
  | cons piece pieces ih =>
    rw [locate, List.map_cons, List.map_cons, ih]

namespace Expansion

def directives (text : Text) : List Directive :=
  (findDirectives text).map (·.directive)

theorem directives_eq (text : Text)
    : directives text = (Outline.ofText text).pieces.map Prod.snd :=
  map_directive_locate 0 _

/-- A chain of directives leads from a text to an inclusion: the first one stands in the text, each
other one in the substituted content of the file that the one before includes, and every directive
inherits the scope of the file it stands in. -/
inductive Leads (env : Environment) : Scope → Text → List Directive → Inclusion → Prop
  | last {scope : Scope} {text : Text} {d : Directive} {i : Inclusion} :
    d ∈ directives text → Includes env.library scope d i → Leads env scope text [d] i
  | step {scope : Scope} {text file : Text} {d : Directive} {i j : Inclusion} {chain : List Directive} :
    d ∈ directives text → Includes env.library scope d i → substituted env i = .ok file →
      Leads env i.scope file chain j → Leads env scope text (d :: chain) j

theorem not_leads_of_directives_eq_nil {env : Environment} {scope : Scope} {text : Text}
    {chain : List Directive} {i : Inclusion} (h : directives text = [])
    : ¬ Leads env scope text chain i := by
  intro hleads
  cases hleads with
  | last hd => simp [h] at hd
  | step hd => simp [h] at hd

def chainLayers (library : Library) (chain : List Directive) : List Scope :=
  chain.flatMap fun d => layers library (Parameters.parse d.parameters)

theorem Leads.scope_eq {env : Environment} {scope : Scope} {text : Text} {chain : List Directive}
    {i : Inclusion} (h : Leads env scope text chain i)
    : i.scope = (chainLayers env.library chain).foldl Scope.merge scope := by
  induction h with
  | last hd hi =>
    rw [hi.scope]
    simp [chainLayers]
  | step hd hi hfile hrest ih =>
    rw [ih, hi.scope, ← List.foldl_append]
    rfl

theorem substituted_of_read {env : Environment} {i : Inclusion} {file : Text}
    (h : env.library.read i.path = .ok file)
    : substituted env i = .ok (Placeholder.applyScope env.settings.transforms file i.scope) := by
  unfold substituted
  rw [h]
  rfl

end Expansion
end Transclusion
