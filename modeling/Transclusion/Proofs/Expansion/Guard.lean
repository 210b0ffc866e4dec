import Transclusion.Proofs.Directive.Parameters
import Transclusion.Proofs.Expansion.Progress
import Transclusion.Proofs.Expansion.Replay
import Transclusion.Proofs.Expansion.Resolve
import Transclusion.Proofs.Text.Search

/-!
This module contains what a condition that is true does to the block of its directive: its token is a
binding like any other token with an equals sign, and but for that binding the block is the same as
without the condition (`blocks_ungated`).
-/

namespace Transclusion
namespace Expansion

open Parameters

def fileKeywords : List Text := ["include", "variables"]

theorem mem_of_sides?_eq_some {condition left right : Text} (h : sides? condition = some (left, right))
    : '=' ∈ condition := by
  have hindex : Text.indexOf? ['=', '='] condition ≠ none := by
    intro hnone
    simp [sides?, Text.cutAt?, hnone] at h
  rw [ne_eq, Text.indexOf?_eq_none_iff, not_not] at hindex
  exact hindex.subset (by simp)

structure Guarded (d : Directive) where
  before : List Text
  guard : Text
  after : List Text
  tokens : tokenize d.parameters = before ++ ("where" : Text) :: guard :: after
  first : ("where" : Text) ∉ before
  valued : ∀ keyword ∈ fileKeywords, keyword ∈ before → (valueAfter? keyword before).isSome
  left : Text
  right : Text
  sides : sides? guard = some (left, right)
  equal : Text.strip left = Text.strip right

/-- In place of the condition a directive has only the binding that its token is, or nothing at all
where that binding makes no difference to the scope. -/
inductive Ungates (library : Library) (inherited : Scope) {d : Directive} (g : Guarded d)
    (d' : Directive) : Prop
  | binding {token : Text} : tokenize d'.parameters = g.before ++ token :: g.after →
      binding? token = binding? g.guard → Ungates library inherited g d'
  | nothing : tokenize d'.parameters = g.before ++ g.after →
      boundScope library inherited (parse d'.parameters)
        = boundScope library inherited (parse d.parameters) → Ungates library inherited g d'

namespace Guarded

variable {d : Directive} (g : Guarded d)

include g

theorem condition : (parse d.parameters).condition = some g.guard := by
  unfold parse ofTokens
  dsimp only
  rw [g.tokens, valueAfter?_append_of_not_mem g.first]
  rfl

theorem holds : Unguarded (parse d.parameters).condition := by
  rw [g.condition]
  intro c hc left right hsides
  obtain rfl := Option.some.inj hc
  rw [g.sides, Option.some.injEq, Prod.mk.injEq] at hsides
  rw [← hsides.1, ← hsides.2, g.equal]

-- The tokens that are left out or put in their place are no keywords, so that nothing else moves.
theorem valueAfter?_eq {keyword : Text} (hkeyword : keyword ∈ fileKeywords) {kept : List Text}
    (hkept : keyword ∉ kept)
    : valueAfter? keyword (g.before ++ (kept ++ g.after))
        = valueAfter? keyword (tokenize d.parameters) := by
  have hplain : '=' ∉ keyword ∧ keyword ≠ "where" := by
    simp only [fileKeywords, List.mem_cons, List.not_mem_nil, or_false] at hkeyword
    rcases hkeyword with rfl | rfl <;> decide
  have hguard : keyword ≠ g.guard := by
    intro h
    rw [h] at hplain
    exact hplain.1 (mem_of_sides?_eq_some g.sides)
  rw [g.tokens]
  by_cases hbefore : keyword ∈ g.before
  . have hvalued := g.valued keyword hkeyword hbefore
    rw [valueAfter?_append_of_isSome hvalued, valueAfter?_append_of_isSome hvalued]
  . rw [valueAfter?_append_of_not_mem hbefore, valueAfter?_append_of_not_mem hbefore,
      valueAfter?_append_of_not_mem hkept]
    have hgone : keyword ∉ [("where" : Text), g.guard] := by
      rw [List.mem_cons, List.mem_singleton, not_or]
      exact ⟨hplain.2, hguard⟩
    exact (valueAfter?_append_of_not_mem hgone g.after).symm

theorem bindings_eq {token : Text} (htoken : binding? token = binding? g.guard)
    : (g.before ++ token :: g.after).filterMap binding?
        = (tokenize d.parameters).filterMap binding? := by
  have hwhere : binding? "where" = none := binding?_eq_none_iff.mpr (by decide)
  rw [g.tokens, List.filterMap_append, List.filterMap_append, List.filterMap_cons_none hwhere,
    List.filterMap_cons, List.filterMap_cons, htoken]

-- A token that is a binding as the guard is has an equals sign too.
theorem not_mem_of_binding {keyword token : Text} (hkeyword : keyword ∈ fileKeywords)
    (htoken : binding? token = binding? g.guard) : keyword ∉ [token] := by
  have hsign : '=' ∈ token := by
    rw [← not_not (a := '=' ∈ token), ← binding?_eq_none_iff, htoken, binding?_eq_none_iff, not_not]
    exact mem_of_sides?_eq_some g.sides
  intro hmem
  rw [← List.mem_singleton.mp hmem] at hsign
  simp only [fileKeywords, List.mem_cons, List.not_mem_nil, or_false] at hkeyword
  rcases hkeyword with rfl | rfl <;> revert hsign <;> decide

end Guarded

namespace Ungates

variable {library : Library} {inherited : Scope} {d d' : Directive} {g : Guarded d}
  (h : Ungates library inherited g d')

include h

theorem valueAfter?_eq {keyword : Text} (hkeyword : keyword ∈ fileKeywords)
    : valueAfter? keyword (tokenize d'.parameters) = valueAfter? keyword (tokenize d.parameters) := by
  cases h with
  | binding htokens htoken =>
    rw [htokens]
    exact g.valueAfter?_eq hkeyword (g.not_mem_of_binding hkeyword htoken)
  | nothing htokens _ =>
    rw [htokens]
    exact g.valueAfter?_eq hkeyword List.not_mem_nil

theorem name_eq : (parse d'.parameters).name = (parse d.parameters).name :=
  h.valueAfter?_eq (by simp [fileKeywords])

theorem boundScope_eq
    : boundScope library inherited (parse d'.parameters)
        = boundScope library inherited (parse d.parameters) := by
  have hfile : (parse d'.parameters).variablesFile = (parse d.parameters).variablesFile :=
    h.valueAfter?_eq (by simp [fileKeywords])
  cases h with
  | nothing _ hscope => exact hscope
  | binding htokens htoken =>
    have hbindings : (parse d'.parameters).bindings = (parse d.parameters).bindings := by
      unfold parse ofTokens
      dsimp only
      rw [htokens, g.bindings_eq htoken]
    unfold boundScope
    rw [hfile, hbindings]

theorem target_eq (hcondition : Unguarded (parse d'.parameters).condition)
    : (target library inherited d').toOption = (target library inherited d).toOption := by
  have hname := h.name_eq
  cases hd : (parse d.parameters).name with
  | none =>
    rw [hd] at hname
    rw [target_eq_none_iff.mpr (.missingInclude hd), target_eq_none_iff.mpr (.missingInclude hname)]
  | some name =>
    rw [hd] at hname
    rw [target_of_name hd, target_of_name hname, h.boundScope_eq, holds_eq_true_iff.mpr hcondition,
      holds_eq_true_iff.mpr g.holds]
    cases boundScope library inherited (parse d.parameters) with
    | error e => rfl
    | ok scope => cases library.index.get? name <;> rfl

end Ungates

/-! ## Both runs -/

def FailsToo (_ : Failure) (inner : Option Failure) : Prop :=
  inner.isSome = true

def Expanded.blocks (e : Expanded) : List Block :=
  e.pieces.map (·.block)

section Runs

variable {α : Type}

theorem Run.Alike.failsToo {r s : Run α} (h : Run.Alike SameDrawn Eq r s)
    : Run.Follows SameDrawn FailsToo Eq r s :=
  h.follows fun _ _ _ => rfl

theorem follows_of_toOption {r s : Run α} (hr : r.Moves SameRegions) (hs : s.Moves SameRegions)
    (h : ∀ p q, (r.exec p).1.toOption = (s.exec q).1.toOption)
    : Run.Follows SameDrawn FailsToo Eq r s := by
  intro p q hpq
  have hp := hr p
  have hq := hs q
  have h := h p q
  cases hrp : r.exec p with
  | mk x p' =>
    cases hsq : s.exec q with
    | mk y q' =>
      rw [hrp] at hp h
      rw [hsq] at hq h
      cases x <;> cases y
      . exact .error rfl
      . simp [Except.toOption] at h
      . simp [Except.toOption] at h
      . apply Run.Answers.ok
        . simpa [Except.toOption] using h
        . unfold SameDrawn at *
          rw [hp.idsDrawn, hq.idsDrawn, hpq]

end Runs

section Expand

variable {env : Environment} {expander : Expander} {nested : Bool} {scope : Scope} {d d' : Directive}
  (hexpander : ∀ i, Run.Alike SameDrawn Eq (expander i) (expander i))

theorem expandPiece_follows_of_directive
    (h : Run.Follows SameDrawn FailsToo Eq (expandDirective env expander nested scope d)
      (expandDirective env expander nested scope d')) (before : Text)
    : Run.Follows SameDrawn FailsToo (fun a b => a.block = b.block)
        (expandPiece env expander nested scope (before, d))
        (expandPiece env expander nested scope (before, d')) := by
  unfold expandPiece
  apply Run.Follows.bind (by simp [FailsToo]) h
  intro block block' hblock
  exact .pure hblock

include hexpander

theorem expandDirective_failsToo (d : Directive)
    : Run.Follows SameDrawn FailsToo Eq (expandDirective env expander nested scope d)
        (expandDirective env expander nested scope d) := by
  apply Run.Alike.failsToo
  apply blind_sameDrawn.closed.bind (blind_sameDrawn.closed.resolve env.library scope d)
  intro found
  exact blind_sameDrawn.closed.expandTarget (regions_sameDrawn env nested) hexpander d found

theorem expandDirective_ungated {g : Guarded d} (hungates : Ungates env.library scope g d')
    (hindent : d'.indent = d.indent) (hcondition : Unguarded (parse d'.parameters).condition)
    : Run.Follows SameDrawn FailsToo Eq (expandDirective env expander nested scope d)
        (expandDirective env expander nested scope d') := by
  unfold expandDirective
  apply Run.Follows.bind (by simp [FailsToo]) (V := Eq)
  . apply follows_of_toOption
    . exact admits_sameRegions.closed.resolve env.library scope d
    . exact admits_sameRegions.closed.resolve env.library scope d'
    . intro p q
      rw [resolve_outcome, resolve_outcome, hungates.target_eq hcondition]
  . rintro found _ rfl
    have htarget : expandTarget env expander nested d' found
        = expandTarget env expander nested d found := by
      unfold expandTarget insertContent
      rw [hindent]
    rw [htarget]
    exact (blind_sameDrawn.closed.expandTarget (regions_sameDrawn env nested) hexpander d found).failsToo

end Expand

theorem Run.Answers.toOption_map_eq {α β : Type} {f : α → β} {x y : Except Failure α × Progress}
    (h : Run.Answers SameDrawn FailsToo (fun a b => f a = f b) x y)
    : x.1.toOption.map f = y.1.toOption.map f := by
  cases h with
  | ok hsame _ => exact congrArg some hsame
  | error _ => rfl
  | ended hnone => simp [FailsToo] at hnone

/-- A condition that is true makes no difference to the blocks of a document but for the binding that
its token is. -/
theorem blocks_ungated {env : Environment} {levels : Nat} {chain : List Text} {nested : Bool}
    {scope : Scope} {text text' before : Text} {earlier later : List (Text × Directive)}
    {d d' : Directive} {g : Guarded d} {p q : Progress}
    (htext : (Outline.ofText text).pieces = earlier ++ (before, d) :: later)
    (htext' : (Outline.ofText text').pieces = earlier ++ (before, d') :: later)
    (hindent : d'.indent = d.indent) (hungates : Ungates env.library scope g d')
    (hcondition : Unguarded (parse d'.parameters).condition) (hdrawn : SameDrawn p q)
    : ((expandWith env (content env levels chain) nested scope text).exec p).1.toOption.map
          Expanded.blocks
        =
      ((expandWith env (content env levels chain) nested scope text').exec q).1.toOption.map
          Expanded.blocks := by
  have hcontent := blind_sameDrawn.content env levels chain
  have hsame : ∀ pieces : List (Text × Directive), List.Forall₂ (fun piece piece' =>
      Run.Follows SameDrawn FailsToo (fun a b => a.block = b.block)
        (expandPiece env (content env levels chain) nested scope piece)
        (expandPiece env (content env levels chain) nested scope piece')) pieces pieces := by
    intro pieces
    rw [List.forall₂_same]
    intro piece _
    exact expandPiece_follows_of_directive (expandDirective_failsToo hcontent piece.2) piece.1
  have hruns : Run.Follows SameDrawn FailsToo (fun a b => a.blocks = b.blocks)
      (expandWith env (content env levels chain) nested scope text)
      (expandWith env (content env levels chain) nested scope text') := by
    unfold expandWith
    dsimp only
    rw [htext, htext']
    apply Run.Follows.bind (by simp [FailsToo])
    . apply Run.Follows.mapM (by simp [FailsToo])
      apply List.rel_append (hsame earlier)
      apply List.Forall₂.cons _ (hsame later)
      exact expandPiece_follows_of_directive
        (expandDirective_ungated hcontent hungates hindent hcondition) before
    . intro pieces pieces' hpieces
      apply Run.Follows.pure
      unfold Expanded.blocks
      rw [← List.forall₂_eq_eq_eq, List.forall₂_map_left_iff, List.forall₂_map_right_iff]
      exact hpieces
  exact (hruns p q hdrawn).toOption_map_eq

def variableFiles : Environment where
  library := {
    index := .ofEntries [(['a'], { root := .none, names := [['a']] }),
      ("where", { root := .none, names := ["where"] })]
    read := fun _ => .ok "$\x7bx\x7d"
    readVariables := fun _ => .ok ∅ }
  ids _ := ['I']

def guardedDirective : Directive where
  indent := []
  parameters := "include a where \"x==x\" "

def bindingDirective : Directive where
  indent := []
  parameters := "include a x= "

def guardedTokens : Guarded guardedDirective where
  before := ["include", ['a']]
  guard := "x==x"
  after := []
  tokens := by decide +kernel
  first := by decide
  valued := by decide
  left := ['x']
  right := ['x']
  sides := by decide
  equal := by rfl

theorem blocks_ungated_variableFiles
    : ((expandWith variableFiles (content variableFiles 64 []) false ∅ guardedDirective.text).exec
            {}).1.toOption.map Expanded.blocks
          =
        ((expandWith variableFiles (content variableFiles 64 []) false ∅ bindingDirective.text).exec
            {}).1.toOption.map Expanded.blocks ∧
      ((expandWith variableFiles (content variableFiles 64 []) false ∅ bindingDirective.text).exec
          {}).1.toOption.map Expanded.blocks = some [.region [] ['a'] ['I'] "\n  "] := by
  have htext : (Outline.ofText guardedDirective.text).pieces = [] ++ ([], guardedDirective) :: [] := by
    decide +kernel
  have htext' : (Outline.ofText bindingDirective.text).pieces = [] ++ ([], bindingDirective) :: [] := by
    decide +kernel
  have hungates : Ungates variableFiles.library ∅ guardedTokens bindingDirective :=
    .binding (by decide +kernel : tokenize bindingDirective.parameters
      = guardedTokens.before ++ ("x=" : Text) :: guardedTokens.after) (by decide +kernel)
  have hcondition : (parse bindingDirective.parameters).condition = none := by decide +kernel
  refine ⟨?_, by decide +kernel⟩
  apply blocks_ungated htext htext' rfl hungates _ rfl
  rw [hcondition]
  simp [Unguarded]

def blocksOf (env : Environment) (text : Text) : Option (List Block) :=
  ((expanded env false ∅ text).exec {}).1.toOption.map Expanded.blocks

theorem blocksOf_variableFiles
    : blocksOf variableFiles "<!-- include a where \"x==x\" -->"
          ≠ blocksOf variableFiles "<!-- include a -->" ∧
        (blocksOf variableFiles "<!-- include a where \"x==x\" -->"
            = some [.region [] ['a'] ['I'] "\n  "] ∧
          blocksOf variableFiles "<!-- include a -->"
            = some [.region [] ['a'] ['I'] "\n  $\x7bx\x7d"]) ∧
        (blocksOf variableFiles "<!-- include where \"x==x\" -->"
            = some [.region [] "where" ['I'] "\n  "] ∧
          blocksOf variableFiles "<!-- include -->" = some [.skipped]) ∧
        (blocksOf variableFiles "<!-- include a where \"x==x\" where \"x==y\" -->"
            = some [.region [] ['a'] ['I'] "\n  "] ∧
          blocksOf variableFiles "<!-- include a where \"x==y\" -->" = some [.skipped]) := by
  decide +kernel

end Expansion
end Transclusion
