import Transclusion.Proofs.Directive.Quotes
import Transclusion.Proofs.Expansion.Chain
import Transclusion.Proofs.Expansion.Document
import Transclusion.Proofs.Region.Spans

/-!
This module contains which of the markers that an expansion writes cleaning can read again: exactly
those of a name that is not empty and has no quote (`marker_readable_iff`). A directive can name a file
otherwise, by an empty pair of quotes or where a quote is not closed.
-/

namespace Transclusion
namespace Region

theorem quotable_of_mem_go {text : Text} {skip breaks blanks offset : Nat} {o : Opening}
    (h : o ∈ openings.go skip breaks blanks offset text) : Quotable o.name ∧ Quotable o.id := by
  induction text generalizing skip breaks blanks offset with
  | nil => cases skip <;> simp [openings.go] at h
  | cons c text ih =>
    cases skip with
    | succ skip =>
      rw [openings.go] at h
      exact ih h
    | zero =>
      cases hhere : openingAt? (c :: text) with
      | none =>
        rw [go_cons_of_none hhere] at h
        exact ih h
      | some marked =>
        obtain ⟨name, id⟩ := marked
        obtain ⟨hname, hid, _⟩ := openingAt?_eq_some_iff.mp hhere
        rw [go_cons_of_some hhere] at h
        cases List.mem_cons.mp h with
        | inl h =>
          rw [h]
          exact ⟨hname, hid⟩
        | inr h => exact ih h

theorem exists_opening_of_mem_findings {cursor : Nat} {found : List Opening} {r : Region}
    (h : .region r ∈ findings cursor found) : ∃ o ∈ found, r.name = o.name ∧ r.id = o.id := by
  induction found generalizing cursor with
  | nil => simp [findings] at h
  | cons o found ih =>
    have ih : ∀ cursor, .region r ∈ findings cursor found →
        ∃ o' ∈ o :: found, r.name = o'.name ∧ r.id = o'.id := by
      intro cursor h
      obtain ⟨o', ho', hsame⟩ := ih h
      exact ⟨o', List.mem_cons_of_mem _ ho', hsame⟩
    rw [findings] at h
    split at h
    next => exact ih _ h
    next =>
      split at h
      next => exact ih _ (by simpa using h)
      next stop hstop =>
        cases List.mem_cons.mp h with
        | inl h =>
          rw [Finding.region.injEq] at h
          rw [h]
          exact ⟨o, by simp, rfl, rfl⟩
        | inr h => exact ih _ h

theorem quotable_of_mem_regions {text : Text} {r : Region} (h : r ∈ regions text)
    : Quotable r.name ∧ Quotable r.id := by
  obtain ⟨finding, hfinding, hr⟩ := List.mem_filterMap.mp h
  cases finding with
  | unclosed => simp [Finding.region?] at hr
  | region r' =>
    rw [Finding.region?, Option.some.injEq] at hr
    obtain ⟨o, ho, hname, hid⟩ := exists_opening_of_mem_findings hfinding
    rw [← hr, hname, hid]
    exact quotable_of_mem_go ho

def wholeMarker (name id : Text) : Opening where
  name
  id
  start := 0
  stop := (openingMarker name id).length
  breaks := 0
  rest := []

def Readable (name id : Text) : Prop :=
  openings (openingMarker name id) = [wholeMarker name id]

theorem readable_iff {name id : Text} : Readable name id ↔ Quotable name ∧ Quotable id := by
  constructor
  . intro h
    have hmem : wholeMarker name id ∈ openings (openingMarker name id) := by
      rw [h]
      apply List.mem_singleton_self
    exact quotable_of_mem_go hmem
  . intro ⟨hname, hid⟩
    unfold Readable openings
    rw [← List.append_nil (openingMarker name id), go_openingMarker_append hname hid, openings.go]
    simp [openingHere, wholeMarker]

-- Whatever else stands inside, the region is the first one that is found.
theorem exists_mem_regions_wrapped {indent name id : Text} (body : Text)
    (hindent : ∀ c ∈ indent, Text.isIndent c = true) (hname : Quotable name) (hid : Quotable id)
    : ∃ r ∈ regions (Expansion.wrapped indent name id body), r.name = name ∧ r.id = id := by
  have hnone : ∀ u, u <:+ '\n' :: indent → u ≠ [] →
      openingAt? (u ++ (openingMarker name id ++
        (Expansion.insideMarkers indent body ++ (closingMarker name id ++ ['\n'])))) = none := by
    intro u hu hne
    obtain ⟨c, u, rfl⟩ := List.exists_cons_of_ne_nil hne
    apply openingAt?_cons_of_ne
    cases List.mem_cons.mp (hu.subset (List.mem_cons_self ..)) with
    | inl hc =>
      rw [hc]
      decide
    | inr hc => exact ne_lt_of_isIndent (hindent c hc)
  have hgo := go_append_of_none (0, 0) 0 hnone
  rw [go_openingMarker_append hname hid] at hgo
  generalize ho : openingHere name id _ _ _ _ = o at hgo
  have hclosed : closingMarker o.name o.id <:+: o.rest := by
    rw [← ho]
    exact ⟨Expansion.insideMarkers indent body, ['\n'], by simp [openingHere]⟩
  cases hstop : o.regionStop? with
  | none => exact absurd hclosed (regionStop?_eq_none_iff.mp hstop)
  | some stop =>
    unfold regions survey openings
    rw [Expansion.wrapped_eq, regionText, hgo, findings, if_neg (Nat.not_lt_zero _), hstop]
    refine ⟨_, List.mem_cons_self .., ?_, ?_⟩
    . rw [← ho]
      rfl
    . rw [← ho]
      rfl

theorem exists_mem_regions_wrapped_iff {indent name id body : Text}
    (hindent : ∀ c ∈ indent, Text.isIndent c = true) (hid : Quotable id)
    : (∃ r ∈ regions (Expansion.wrapped indent name id body), r.name = name ∧ r.id = id) ↔
        Quotable name := by
  constructor
  . intro ⟨r, hr, hname, _⟩
    rw [← hname]
    exact (quotable_of_mem_regions hr).1
  . intro hname
    exact exists_mem_regions_wrapped body hindent hname hid

/-- The marker of an included file, and the region that is written for it, are read again exactly if
the name of the file is not empty and has no quote. Where the quotes of the directive are closed it has
none; elsewhere it is a word of the directive without the quotes around it. -/
theorem marker_readable_iff {text : Text} {l : Located} (hl : l ∈ findDirectives text) {name id : Text}
    (hname : (Parameters.parse l.directive.parameters).name = some name) (hid : Quotable id) (body : Text)
    : (Readable name id ↔ Quotable name) ∧
        ((∃ r ∈ regions (Expansion.Block.region l.directive.indent name id body).text,
            r.name = name ∧ r.id = id) ↔ Quotable name) ∧
        (Parameters.Balanced l.directive.parameters → (Quotable name ↔ name ≠ [])) ∧
        (¬ Parameters.Balanced l.directive.parameters →
          ∃ word ∈ Text.words l.directive.parameters, name = Parameters.unquote word) := by
  have hindent : ∀ c ∈ l.directive.indent, Text.isIndent c = true := by
    have hdirective : l.directive ∈ Expansion.directives text := List.mem_map_of_mem hl
    rw [Expansion.directives_eq] at hdirective
    obtain ⟨piece, hpiece, hl⟩ := List.mem_map.mp hdirective
    rw [← hl]
    exact isIndent_of_mem_ofText hpiece
  have htoken := Parameters.mem_of_valueAfter?_eq_some hname
  refine ⟨?_, exists_mem_regions_wrapped_iff hindent hid, ?_, ?_⟩
  . rw [readable_iff]
    simp [hid]
  . intro hbalanced
    have := Parameters.quote_not_mem_of_mem_tokenize hbalanced htoken
    simp [Quotable, this]
  . intro hbalanced
    rw [Parameters.tokenize_of_not_balanced hbalanced] at htoken
    obtain ⟨word, hword, hname⟩ := List.mem_map.mp htoken
    exact ⟨word, hword, hname.symm⟩

def spacedName : Located where
  directive := { indent := ['\t'], parameters := "include \"a b\" " }
  start := 1
  stop := 23

theorem marker_readable_spacedName
    : Readable "a b" "I" ∧
        ∃ r ∈ regions (Expansion.Block.region ['\t'] "a b" "I" "\nhi").text,
          r.name = "a b".toList ∧ r.id = "I".toList := by
  have hl : spacedName ∈ findDirectives "\t<!-- include \"a b\" -->" := by decide +kernel
  have hname : (Parameters.parse spacedName.directive.parameters).name = some "a b".toList := by
    decide +kernel
  have hid : Quotable "I" := by
    unfold Quotable
    decide
  have hquotable : Quotable "a b" := by
    unfold Quotable
    decide
  obtain ⟨hreadable, hfound, _⟩ := marker_readable_iff hl hname hid "\nhi"
  exact ⟨hreadable.mpr hquotable, hfound.mpr hquotable⟩

def quotedFile : Expansion.Environment where
  library := {
    index := .ofEntries [("a\"b", { root := .none, names := ["a\"b"] })]
    read := fun _ => .ok "hi"
    readVariables := fun _ => .ok ∅ }
  ids _ := "I"

def unclosedDocument : Text := "<!-- include a\"b -->"

def unclosedDirective : Located where
  directive := { indent := [], parameters := "include a\"b " }
  start := 0
  stop := 20

def unclosedExpanded : Text :=
  unclosedDocument ++ Expansion.wrapped [] "a\"b" "I" "\n  hi"

theorem regions_unclosedExpanded
    : unclosedDirective ∈ findDirectives unclosedDocument ∧
        (Parameters.parse unclosedDirective.directive.parameters).name = some "a\"b".toList ∧
        ((Expansion.expand quotedFile false ∅ unclosedDocument).exec {}).1 = .ok unclosedExpanded ∧
        ¬ Readable "a\"b" "I" ∧
        regions unclosedExpanded = [] ∧ clean unclosedExpanded ≠ unclosedDocument := by
  refine ⟨by decide +kernel, by decide +kernel, Expansion.eq_ok_of_toOption (by decide +kernel), ?_,
    by decide +kernel, by decide +kernel⟩
  unfold Readable
  decide +kernel

end Region
end Transclusion
