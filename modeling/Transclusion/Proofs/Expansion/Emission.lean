import Transclusion.Proofs.Expansion.Composition

/-!
This module contains the files that a run visits, with the text that it makes of each of them (`Emits`).
What is inserted for a file is its content with one scope substituted, and that scope is made of what
the directives bind that lead to the file (`expand_scoped`).
-/

namespace Transclusion
namespace Expansion

structure Visit where
  chain : List Directive
  inclusion : Inclusion

def Visit.below (d : Directive) (v : Visit) : Visit :=
  { v with chain := d :: v.chain }

def withBlocks (text : Text) (blocks : List Text) : Text :=
  insertAfter text 0 ((findDirectives text).zip blocks)

section

variable (env : Environment) (inside : Inclusion → List Visit → Option Text → Prop)

/-- What is inserted after a directive when `n` ids are in use, and how many are in use then. A run that
fails inserts nothing, but may have visited files before. `inside` tells what a file comes to. -/
inductive EmitsBlock (nested : Bool) (scope : Scope) (n : Nat) (d : Directive)
    : List Visit → Option (Text × Nat) → Prop
  | skipped : Skips env.library d → EmitsBlock nested scope n d [] (some ([], n))
  | unresolved {e : Failure} :
    target env.library scope d = .error e → EmitsBlock nested scope n d [] none
  | included {i : Inclusion} {visited : List Visit} {content : Option Text} :
    Includes env.library scope d i → inside i visited content →
      EmitsBlock nested scope n d (visited.map (Visit.below d))
        (content.map fun content =>
          (blockText env nested d i.name (env.ids n) content, if nested then n else n + 1))

inductive Emits (nested : Bool) (scope : Scope)
    : Nat → List Directive → List Visit → Option (List Text) → Prop
  | nil {n : Nat} : Emits nested scope n [] [] (some [])
  | cons {n n' : Nat} {d : Directive} {ds : List Directive} {visited later : List Visit} {block : Text}
    {blocks : Option (List Text)} :
    EmitsBlock env inside nested scope n d visited (some (block, n')) →
      Emits nested scope n' ds later blocks →
        Emits nested scope n (d :: ds) (visited ++ later) (blocks.map (block :: ·))
  | broken {n : Nat} {d : Directive} {ds : List Directive} {visited : List Visit} :
    EmitsBlock env inside nested scope n d visited none → Emits nested scope n (d :: ds) visited none

inductive EmitsFile (i : Inclusion) : List Visit → Option Text → Prop
  | unread {e : Failure} :
    env.library.read i.path = .error e → EmitsFile i [{ chain := [], inclusion := i }] none
  | read {raw file : Text} {n : Nat} {below : List Visit} {blocks : Option (List Text)} :
    env.library.read i.path = .ok raw →
      Placeholder.applyScope env.settings.transforms raw i.scope = file →
        Emits env inside true i.scope n (directives file) below blocks →
          EmitsFile i ({ chain := [], inclusion := i } :: below) (blocks.map (withBlocks file))

end

def EmitsContent (env : Environment) : Nat → Inclusion → List Visit → Option Text → Prop
  | 0 => fun _ visited content => visited = [] ∧ content = none
  | levels + 1 => EmitsFile env (EmitsContent env levels)

/-! ## Runs emit -/

def Reports (p q : Progress) (visited : List Visit) : Prop :=
  q.report.includesResolved = p.report.includesResolved ++ visited.map (·.inclusion.name)

theorem Reports.of_same {p q : Progress} (h : SameIncludes p q) : Reports p q [] := by
  unfold Reports
  rw [List.map_nil, List.append_nil]
  exact h

theorem Reports.append {p q s : Progress} {visited later : List Visit} (h : Reports p q visited)
    (h' : Reports q s later) : Reports p s (visited ++ later) := by
  unfold Reports at *
  rw [h', h, List.map_append, List.append_assoc]

theorem Reports.below {p q : Progress} {visited : List Visit} (h : Reports p q visited)
    (d : Directive) : Reports p q (visited.map (Visit.below d)) := by
  unfold Reports at *
  rw [h, List.map_map]
  rfl

structure Delivers (expander : Expander) (inside : Inclusion → List Visit → Option Text → Prop)
    : Prop where
  emits : ∀ i p, ∃ visited, inside i visited ((expander i).exec p).1.toOption ∧
    Reports p ((expander i).exec p).2 visited
  sameRegions : ∀ i, (expander i).Moves SameRegions

section Runs

variable {env : Environment} {expander : Expander}
  {inside : Inclusion → List Visit → Option Text → Prop} (h : Delivers expander inside)
  (nested : Bool) (scope : Scope)

theorem exec_resolve_eq (library : Library) (scope : Scope) (d : Directive) (p : Progress)
    : ∃ q, (resolve library scope d).exec p = (target library scope d, q) ∧
        q.idsDrawn = p.idsDrawn ∧ Reports p q [] := by
  have hregions := admits_sameRegions.closed.resolve library scope d p
  have hincludes := admits_sameIncludes.closed.resolve library scope d p
  exact ⟨_, Prod.ext (resolve_outcome library scope d p) rfl, hregions.idsDrawn, .of_same hincludes⟩

include h

theorem emits_expandDirective (d : Directive) (p : Progress)
    : ∃ outcome q visited, (expandDirective env expander nested scope d).exec p = (outcome, q) ∧
        EmitsBlock env inside nested scope p.idsDrawn d visited
          (outcome.toOption.map fun block => (block.text, q.idsDrawn)) ∧
        Reports p q visited := by
  obtain ⟨p', hresolve, hdrawn, hreports⟩ := exec_resolve_eq env.library scope d p
  unfold expandDirective
  rw [Run.exec_bind, hresolve]
  cases htarget : target env.library scope d with
  | error e => exact ⟨_, _, [], rfl, .unresolved htarget, hreports⟩
  | ok found =>
    cases found with
    | none =>
      refine ⟨_, _, [], rfl, ?_, hreports⟩
      rw [← hdrawn]
      exact .skipped (target_eq_none_iff.mp htarget)
    | some i =>
      have hi := target_eq_some_iff.mp htarget
      obtain ⟨visited, hinside, hvisited⟩ := h.emits i p'
      have hsame := h.sameRegions i p'
      have hvisited := hreports.append (hvisited.below d)
      have hblock := @EmitsBlock.included env inside nested scope p.idsDrawn d _ _ _ hi hinside
      dsimp only [expandTarget]
      rw [Run.exec_bind]
      cases hcontent : (expander i).exec p' with
      | mk outcome p'' =>
        rw [hcontent] at hblock hsame hvisited
        cases outcome with
        | error e => exact ⟨_, _, _, rfl, hblock, hvisited⟩
        | ok content =>
          obtain ⟨block, q, hinsert, htext, hq⟩ :=
            exec_insertContent env nested d i.name content p''
          have hincludes := admits_sameIncludes.closed.insertContent (regions_sameIncludes env nested)
            d i.name content p''
          rw [hinsert] at hincludes
          rw [hsame.idsDrawn, hdrawn] at htext hq
          refine ⟨_, q, _, hinsert, ?_, hvisited.append (.of_same hincludes)⟩
          rw [List.append_nil]
          dsimp only [Except.toOption, Option.map_some] at hblock ⊢
          rw [htext, hq]
          exact hblock

-- The progress is generalised: the ids of the later blocks depend on how many the earlier ones have
-- drawn.
theorem emits_mapM (pieces : List (Text × Directive)) (p : Progress)
    : ∃ outcome q visited, (pieces.mapM (expandPiece env expander nested scope)).exec p = (outcome, q) ∧
        Emits env inside nested scope p.idsDrawn (pieces.map Prod.snd) visited
          (outcome.toOption.map fun done => done.map (·.block.text)) ∧
        Reports p q visited := by
  induction pieces generalizing p with
  | nil => exact ⟨_, p, [], rfl, .nil, .of_same rfl⟩
  | cons piece pieces ih =>
    obtain ⟨outcome, p', visited, hexec, hblock, hreports⟩ :=
      emits_expandDirective h nested scope piece.2 p
    cases outcome with
    | error e =>
      refine ⟨.error e, p', visited, ?_, .broken hblock, hreports⟩
      rw [List.mapM_cons]
      apply Run.exec_bind_of_error
      unfold expandPiece
      exact Run.exec_bind_of_error hexec
    | ok block =>
      have hpiece : (expandPiece env expander nested scope piece).exec p
          = (.ok { before := piece.1, directive := piece.2, block }, p') := by
        unfold expandPiece
        rw [Run.exec_bind_of_ok hexec]
        rfl
      obtain ⟨outcome, q, later, hlater, hemits, hreports'⟩ := ih p'
      have hemits := Emits.cons hblock hemits
      rw [List.mapM_cons, Run.exec_bind_of_ok hpiece]
      cases outcome with
      | error e =>
        exact ⟨_, q, _, Run.exec_bind_of_error hlater, hemits, hreports.append hreports'⟩
      | ok done =>
        refine ⟨.ok ({ before := piece.1, directive := piece.2, block } :: done), q, _, ?_, hemits,
          hreports.append hreports'⟩
        rw [Run.exec_bind_of_ok hlater]
        rfl

theorem emits_expandWith (text : Text) (p : Progress)
    : ∃ outcome q visited blocks, (expandWith env expander nested scope text).exec p = (outcome, q) ∧
        Emits env inside nested scope p.idsDrawn (directives text) visited blocks ∧
        outcome.toOption.map (·.text) = blocks.map (withBlocks text) ∧
        Reports p q visited := by
  obtain ⟨outcome, q, visited, hexec, hemits, hreports⟩ :=
    emits_mapM h nested scope (Outline.ofText text).pieces p
  rw [← directives_eq] at hemits
  unfold expandWith
  cases outcome with
  | error e => exact ⟨_, q, visited, _, Run.exec_bind_of_error hexec, hemits, rfl, hreports⟩
  | ok done =>
    refine ⟨.ok { pieces := done, rest := (Outline.ofText text).rest }, q, visited, _, ?_, hemits, ?_,
      hreports⟩
    . rw [Run.exec_bind_of_ok hexec]
      rfl
    . have houtline := outline_of_mapM hexec
      have hinsert := insertAfter_locate [] done (Outline.ofText text).rest
      rw [List.nil_append, source_of_outline houtline, houtline] at hinsert
      exact congrArg some hinsert.symm

theorem emits_expandFile {i : Inclusion} {raw file : Text} (hraw : env.library.read i.path = .ok raw)
    (hfile : Placeholder.applyScope env.settings.transforms raw i.scope = file) (p : Progress)
    : ∃ visited blocks, Emits env inside true i.scope p.idsDrawn (directives file) visited blocks ∧
        ((expandFile env expander i).exec p).1.toOption = blocks.map (withBlocks file) ∧
        Reports p ((expandFile env expander i).exec p).2 visited := by
  obtain ⟨outcome, q, visited, blocks, hexec, hemits, htext, hreports⟩ :=
    emits_expandWith h true i.scope file p
  have hsubstituted : substituted env i = .ok file := by rw [substituted_of_read hraw, hfile]
  refine ⟨visited, blocks, hemits, ?_⟩
  unfold expandFile
  rw [hsubstituted, Run.exec_bind_of_ok (Run.exec_ofExcept ..), Run.exec_bind, hexec, ← htext]
  cases outcome <;> exact ⟨rfl, hreports⟩

end Runs

theorem delivers_content (env : Environment) (levels : Nat) (chain : List Text)
    : Delivers (content env levels chain) (EmitsContent env levels) where
  sameRegions i := content_sameRegions env levels chain i
  emits i p := by
    induction levels generalizing chain i p with
    | zero => exact ⟨[], ⟨rfl, rfl⟩, .of_same rfl⟩
    | succ levels ih =>
      have hdelivers : Delivers (content env levels (chain ++ [i.name])) (EmitsContent env levels) :=
        ⟨fun i p => ih _ i p, content_sameRegions env levels _⟩
      have hrecord : Reports p { p with report := p.report.recordInclude i.name (chain.length + 1) }
          [{ chain := [], inclusion := i }] := by
        rfl
      unfold content
      rw [Run.exec_bind_of_ok (exec_updateReport _ p)]
      cases hread : env.library.read i.path with
      | error e =>
        have hsubstituted : substituted env i = .error e := by
          unfold substituted
          rw [hread]
          rfl
        refine ⟨[{ chain := [], inclusion := i }], ?_, ?_⟩
        all_goals
          unfold expandFile
          rw [hsubstituted, Run.exec_bind_of_error (Run.exec_ofExcept ..)]
        . exact .unread hread
        . exact hrecord
      | ok raw =>
        obtain ⟨below, blocks, hemits, htext, hreports⟩ := emits_expandFile hdelivers hread rfl
          { p with report := p.report.recordInclude i.name (chain.length + 1) }
        refine ⟨_, ?_, hrecord.append hreports⟩
        rw [htext]
        exact .read hread rfl hemits

/-! ## The scopes of the files -/

def LeadsWithin (env : Environment) (inside : Inclusion → List Visit → Option Text → Prop) : Prop :=
  ∀ i visited content, inside i visited content → ∀ v ∈ visited,
    v = { chain := [], inclusion := i } ∨
      ∃ file, substituted env i = .ok file ∧ Leads env i.scope file v.chain v.inclusion

section Leads

variable {env : Environment} {inside : Inclusion → List Visit → Option Text → Prop}
  (h : LeadsWithin env inside) {nested : Bool} {scope : Scope} {n : Nat} {text : Text}

include h

theorem leads_of_emitsBlock {d : Directive} (hd : d ∈ directives text) {visited : List Visit}
    {block : Option (Text × Nat)} (hblock : EmitsBlock env inside nested scope n d visited block)
    : ∀ v ∈ visited, Leads env scope text v.chain v.inclusion := by
  cases hblock with
  | skipped => simp
  | unresolved => simp
  | included hi hinside =>
    rw [List.forall_mem_map]
    intro v hv
    rcases h _ _ _ hinside v hv with rfl | ⟨file, hfile, hleads⟩
    . exact .last hd hi
    . exact .step hd hi hfile hleads

theorem leads_of_emits {ds : List Directive} (hds : ds ⊆ directives text) {visited : List Visit}
    {blocks : Option (List Text)} (hemits : Emits env inside nested scope n ds visited blocks)
    : ∀ v ∈ visited, Leads env scope text v.chain v.inclusion := by
  induction hemits with
  | nil => simp
  | cons hblock _ ih =>
    rw [List.cons_subset] at hds
    rw [List.forall_mem_append]
    exact ⟨leads_of_emitsBlock h hds.1 hblock, ih hds.2⟩
  | broken hblock => exact leads_of_emitsBlock h (hds List.mem_cons_self) hblock

end Leads

theorem leadsWithin_emitsContent (env : Environment) (levels : Nat)
    : LeadsWithin env (EmitsContent env levels) := by
  induction levels with
  | zero =>
    rintro i _ _ ⟨rfl, _⟩
    simp
  | succ levels ih =>
    intro i visited content hcontent
    cases hcontent with
    | unread => simp
    | read hraw hfile hemits =>
      rw [List.forall_mem_cons]
      refine ⟨.inl rfl, ?_⟩
      intro v hv
      refine .inr ⟨_, substituted_of_read hraw, ?_⟩
      rw [hfile]
      exact leads_of_emits ih (List.Subset.refl _) hemits v hv

/-- A visited file is reached by a chain of directives, and its scope is made along this chain: under
every name there are the values of the globals, of the directives and of their variables files one after
the other, and the names are in the order in which they come up. -/
structure Scoped (env : Environment) (globals : Scope) (text : Text) (v : Visit) : Prop where
  leads : Leads env globals text v.chain v.inclusion
  value : ∀ name, v.inclusion.scope.get? name
    = joined ((globals :: chainLayers env.library v.chain).filterMap (·.get? name))
  keys : v.inclusion.scope.keys
    = ((globals :: chainLayers env.library v.chain).flatMap (·.keys)).eraseDups

theorem Leads.scoped {env : Environment} {globals : Scope} {text : Text} {v : Visit}
    (h : Leads env globals text v.chain v.inclusion) : Scoped env globals text v where
  leads := h
  value name := by rw [h.scope_eq, Scope.get?_foldl_merge]
  keys := by rw [h.scope_eq, Scope.keys_foldl_merge]

/-- What a run emits is made of the files that it visits, of the content of each one with a scope
substituted in it, and the scope is made along the chain of directives that leads to the file. The report
tells of the same files, also where the run fails. -/
theorem expand_scoped (env : Environment) (nested : Bool) (globals : Scope) (text : Text) (p : Progress)
    : ∃ visited blocks,
        Emits env (EmitsContent env env.settings.levels) nested globals p.idsDrawn (directives text)
          visited blocks ∧
        ((expand env nested globals text).exec p).1.toOption = blocks.map (withBlocks text) ∧
        ((expand env nested globals text).exec p).2.report.includesResolved
          = p.report.includesResolved ++ visited.map (·.inclusion.name) ∧
        ∀ v ∈ visited, Scoped env globals text v := by
  obtain ⟨outcome, q, visited, blocks, hexec, hemits, htext, hreports⟩ :=
    emits_expandWith (delivers_content env env.settings.levels []) nested globals text p
  have hleads := leads_of_emits (leadsWithin_emitsContent env _) (List.Subset.refl _) hemits
  refine ⟨visited, blocks, hemits, ?_, ?_, fun v hv => (hleads v hv).scoped⟩
  all_goals
    unfold expand expanded
    rw [Run.exec_bind, hexec]
  . rw [← htext]
    cases outcome <;> rfl
  . cases outcome <;> exact hreports

def binding (inner : Text) : Directive where
  indent := []
  parameters := "include " ++ inner ++ " "

def nestedBindings : Environment where
  library := {
    index := .ofEntries [(['a'], { root := .none, names := [['a']] }),
      (['b'], { root := .none, names := [['b']] }), (['v'], { root := .none, names := [['v']] })]
    read := fun path =>
      if path.names = [['a']] then .ok (binding "b variables v x=2").text else .ok "$\x7bx\x7d"
    readVariables := fun _ => .ok (Scope.extend ∅ ['x'] ['3']) }
  ids _ := ['I']

def startingValue : Scope :=
  Scope.extend ∅ ['x'] ['0']

theorem directives_binding
    : directives (binding "a x=1").text = [binding "a x=1"] ∧
        directives (binding "b variables v x=2").text = [binding "b variables v x=2"] := by
  decide +kernel

theorem contents_nestedBindings
    : ((target nestedBindings.library startingValue (binding "a x=1")).toOption.join.bind fun i =>
          (substituted nestedBindings i).toOption.bind fun file =>
            (target nestedBindings.library i.scope (binding "b variables v x=2")).toOption.join.bind
              fun j => (substituted nestedBindings j).toOption.map fun content => (file, content))
        =
      some ((binding "b variables v x=2").text, "0123".toList) := by
  decide +kernel

theorem chain_of_leads_nestedBindings {chain : List Directive} {i : Inclusion}
    (h : Leads nestedBindings startingValue (binding "a x=1").text chain i) (hname : i.name = ['b'])
    : chain = [binding "a x=1", binding "b variables v x=2"] := by
  have hcontents := contents_nestedBindings
  obtain ⟨hdocument, hfile⟩ := directives_binding
  cases h with
  | last hd hi =>
    have hfirst : (Parameters.parse (binding "a x=1").parameters).name = some ['a'] := by
      decide +kernel
    rw [hdocument, List.mem_singleton] at hd
    rw [hd] at hi
    rw [hi.name, hname] at hfirst
    simp at hfirst
  | step hd hi hsubstituted hrest =>
    rw [hdocument, List.mem_singleton] at hd
    subst hd
    rw [target_eq_some_iff.mpr hi] at hcontents
    simp only [Except.toOption, Option.join_some, Option.bind_some, hsubstituted] at hcontents
    obtain ⟨j, hj, hcontent⟩ := Option.bind_eq_some_iff.mp hcontents
    obtain ⟨content, hcontent, hboth⟩ := Option.map_eq_some_iff.mp hcontent
    obtain ⟨rfl, rfl⟩ := Prod.mk.inj hboth
    cases hrest with
    | last hd' =>
      rw [hfile, List.mem_singleton] at hd'
      rw [hd']
    | step hd' hi' hsubstituted' hrest' =>
      rw [hfile, List.mem_singleton] at hd'
      subst hd'
      rw [target_eq_some_iff.mpr hi'] at hj
      obtain rfl := Option.some.inj hj
      rw [hsubstituted'] at hcontent
      obtain rfl := Option.some.inj hcontent
      exact absurd hrest' (not_leads_of_directives_eq_nil (by decide +kernel))

theorem expand_scoped_nestedBindings
    : ∃ visited blocks,
        Emits nestedBindings (EmitsContent nestedBindings 64) false startingValue 0
          [binding "a x=1"] visited blocks ∧
        blocks.map (withBlocks (binding "a x=1").text)
          = some ("<!-- include a x=1 -->\n<!-- included \"a\" \"I\" -->\n\n" ++
            "  <!-- include b variables v x=2 -->\n    0123\n<!-- / included \"a\" \"I\" -->\n") ∧
        visited.map (·.inclusion.name) = [['a'], ['b']] ∧
        ∀ v ∈ visited, v.inclusion.name = ['b'] →
          v.chain = [binding "a x=1", binding "b variables v x=2"] ∧
            v.inclusion.scope.get? ['x'] = some "0123" := by
  obtain ⟨visited, blocks, hemits, htext, hreport, hscoped⟩ :=
    expand_scoped nestedBindings false startingValue (binding "a x=1").text {}
  have houtcome : ((expand nestedBindings false startingValue (binding "a x=1").text).exec {}).1.toOption
      = some ("<!-- include a x=1 -->\n<!-- included \"a\" \"I\" -->\n\n" ++
        "  <!-- include b variables v x=2 -->\n    0123\n<!-- / included \"a\" \"I\" -->\n") := by
    decide +kernel
  have hincludes : ((expand nestedBindings false startingValue
      (binding "a x=1").text).exec {}).2.report.includesResolved = [['a'], ['b']] := by
    decide +kernel
  rw [houtcome] at htext
  rw [hincludes] at hreport
  rw [directives_binding.1] at hemits
  refine ⟨visited, blocks, hemits, htext.symm, hreport.symm, ?_⟩
  intro v hv hname
  have hchain := chain_of_leads_nestedBindings (hscoped v hv).leads hname
  refine ⟨hchain, ?_⟩
  rw [(hscoped v hv).value, hchain]
  decide +kernel

end Expansion
end Transclusion
