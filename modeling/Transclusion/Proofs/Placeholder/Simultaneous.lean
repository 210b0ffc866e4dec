import Mathlib.Data.List.Nodup
import Transclusion.Proofs.Placeholder.Scan

/-!
This module contains what a scope makes of a text in which a dollar sign only begins a placeholder:
every placeholder is replaced for itself, by what the first variable that it can refer to gives, and
the rest of the text stays (`applyScope_simultaneous`). The order of the variables then only matters
for names with points.
-/

namespace Transclusion
namespace Placeholder

def Bare (t : Text) : Prop :=
  '$' ∉ t ∧ '{' ∉ t ∧ '}' ∉ t

instance (t : Text) : Decidable (Bare t) :=
  inferInstanceAs (Decidable (_ ∧ _ ∧ _))

def Regular (text : Text) : Prop :=
  ∀ before after, text = before ++ '$' :: after →
    ∃ body rest, after = '{' :: (body ++ '}' :: rest) ∧ Bare body

inductive Piece
  | char (c : Char)
  | placeholder (body : Text)
  deriving DecidableEq

namespace Piece

def WellFormed : Piece → Prop
  | char c => c ≠ '$'
  | placeholder body => Bare body

instance : (p : Piece) → Decidable p.WellFormed
  | char c => inferInstanceAs (Decidable (c ≠ '$'))
  | placeholder body => inferInstanceAs (Decidable (Bare body))

def text : Piece → Text
  | char c => [c]
  | placeholder body => plain body

def shown (value? : Text → Option Text) : Piece → Text
  | char c => [c]
  | placeholder body => (value? body).getD (plain body)

end Piece

def assemble (ps : List Piece) : Text :=
  ps.flatMap Piece.text

theorem assemble_cons (p : Piece) (ps : List Piece) : assemble (p :: ps) = p.text ++ assemble ps := by
  rfl

theorem shown_none : Piece.shown (fun _ => none) = Piece.text := by
  funext p
  cases p <;> rfl

theorem assemble_append (ps qs : List Piece) : assemble (ps ++ qs) = assemble ps ++ assemble qs :=
  List.flatMap_append

theorem assemble_map_char (t : Text) : assemble (t.map .char) = t := by
  induction t with
  | nil => rfl
  | cons c t ih =>
    rw [List.map_cons, assemble_cons, ih]
    rfl

theorem Regular.of_append {a b : Text} (h : Regular (a ++ b)) : Regular b := by
  intro before after hb
  apply h (a ++ before) after
  rw [hb, List.append_assoc]

theorem Regular.exists_pieces {text : Text} (h : Regular text)
    : ∃ ps, (∀ p ∈ ps, p.WellFormed) ∧ text = assemble ps := by
  induction hlength : text.length using Nat.strongRecOn generalizing text with
  | _ length ih =>
    cases text with
    | nil => exact ⟨[], by simp, rfl⟩
    | cons c text =>
      by_cases hc : c = '$'
      . obtain ⟨body, rest, htext, hbody⟩ := h [] text (by rw [hc]; rfl)
        have hplain : c :: text = plain body ++ rest := by rw [plain_append, hc, htext]
        rw [hplain] at h
        obtain ⟨ps, hps, hrest⟩ := ih rest.length
          (by rw [← hlength, htext]; simp; omega) h.of_append rfl
        refine ⟨.placeholder body :: ps, ?_, ?_⟩
        . rw [List.forall_mem_cons]
          exact ⟨hbody, hps⟩
        . rw [hplain, hrest]
          rfl
      . have h : Regular ([c] ++ text) := h
        obtain ⟨ps, hps, htext⟩ := ih text.length (by rw [← hlength]; simp) h.of_append rfl
        refine ⟨.char c :: ps, ?_, ?_⟩
        . rw [List.forall_mem_cons]
          exact ⟨hc, hps⟩
        . rw [htext]
          rfl

theorem regular_char {c : Char} {t : Text} (hc : c ≠ '$') (h : Regular t) : Regular (c :: t) := by
  intro before after heq
  have hsingle : [c] ++ t = before ++ '$' :: after := heq
  obtain ⟨later, _, ht⟩ := Text.exists_append_of_not_mem hsingle (by simpa using hc.symm)
  exact h later after ht

theorem regular_plain_append {body t : Text} (hbody : Bare body) (h : Regular t)
    : Regular (plain body ++ t) := by
  intro before after heq
  rw [plain_append] at heq
  cases before with
  | nil =>
    rw [List.nil_append, List.cons.injEq] at heq
    exact ⟨body, t, heq.2.symm, hbody⟩
  | cons d before =>
    rw [List.cons_append, List.cons.injEq] at heq
    have hfree : '$' ∉ '{' :: (body ++ ['}']) := by
      simp [hbody.1]
    have hsplit : '{' :: (body ++ ['}']) ++ t = before ++ '$' :: after := by
      rw [← heq.2]
      simp
    obtain ⟨later, _, ht⟩ := Text.exists_append_of_not_mem hsplit hfree
    exact h later after ht

theorem regular_iff {text : Text}
    : Regular text ↔ ∃ ps, (∀ p ∈ ps, p.WellFormed) ∧ text = assemble ps := by
  constructor
  . exact Regular.exists_pieces
  . rintro ⟨ps, hps, rfl⟩
    induction ps with
    | nil =>
      intro before after heq
      simp [assemble] at heq
    | cons p ps ih =>
      rw [List.forall_mem_cons] at hps
      cases p with
      | char c => exact regular_char hps.1 (ih hps.2)
      | placeholder body => exact regular_plain_append hps.1 (ih hps.2)

def Piece.fill (value? : Text → Option Text) : Piece → List Piece
  | char c => [char c]
  | placeholder body =>
    match value? body with
    | some value => value.map char
    | none => [placeholder body]

theorem Piece.fill_of_some {value? : Text → Option Text} {body value : Text}
    (h : value? body = some value) : fill value? (.placeholder body) = value.map char := by
  rw [fill, h]

theorem Piece.fill_of_none {value? : Text → Option Text} {body : Text} (h : value? body = none)
    : fill value? (.placeholder body) = [.placeholder body] := by
  rw [fill, h]

theorem assemble_singleton (p : Piece) : assemble [p] = p.text :=
  List.flatMap_singleton ..

theorem assemble_flatMap_fill (value? : Text → Option Text) (ps : List Piece)
    : assemble (ps.flatMap (Piece.fill value?)) = ps.flatMap (Piece.shown value?) := by
  induction ps with
  | nil => rfl
  | cons p ps ih =>
    rw [List.flatMap_cons, List.flatMap_cons, assemble_append, ih]
    congr 1
    cases p with
    | char c => rfl
    | placeholder body =>
      rw [Piece.shown]
      cases h : value? body with
      | none => rw [Piece.fill_of_none h, assemble_singleton, Piece.text, Option.getD_none]
      | some value => rw [Piece.fill_of_some h, assemble_map_char, Option.getD_some]

theorem flatMap_fill_map_char (value? : Text → Option Text) (t : Text)
    : (t.map Piece.char).flatMap (Piece.fill value?) = t.map Piece.char := by
  induction t with
  | nil => rfl
  | cons c t ih =>
    rw [List.map_cons, List.flatMap_cons, ih]
    rfl

theorem flatMap_fill_fill (first? second? : Text → Option Text) (ps : List Piece)
    : (ps.flatMap (Piece.fill first?)).flatMap (Piece.fill second?)
        =
      ps.flatMap (Piece.fill fun body => (first? body).or (second? body)) := by
  rw [List.flatMap_assoc]
  congr 1
  funext p
  cases p with
  | char c => rfl
  | placeholder body =>
    cases h : first? body with
    | none =>
      have hfirst := Piece.fill_of_none h
      rw [hfirst, List.flatMap_singleton, Piece.fill, Piece.fill, h, Option.none_or]
    | some value =>
      rw [Piece.fill_of_some h, flatMap_fill_map_char, Piece.fill_of_some]
      rw [h, Option.some_or]

theorem wellFormed_of_mem_fill {value? : Text → Option Text} {ps : List Piece}
    (hps : ∀ p ∈ ps, p.WellFormed) (hvalue : ∀ body value, value? body = some value → '$' ∉ value)
    : ∀ p ∈ ps.flatMap (Piece.fill value?), p.WellFormed := by
  intro p hp
  obtain ⟨q, hq, hp⟩ := List.mem_flatMap.mp hp
  have hq := hps q hq
  cases q with
  | char c =>
    rw [Piece.fill, List.mem_singleton] at hp
    rw [hp]
    exact hq
  | placeholder body =>
    rw [Piece.fill] at hp
    split at hp
    next value hbody =>
      obtain ⟨c, hc, rfl⟩ := List.mem_map.mp hp
      intro hdollar
      exact hvalue body value hbody (hdollar ▸ hc)
    next =>
      rw [List.mem_singleton] at hp
      rw [hp]
      exact hq

-- A placeholder has one dollar sign, at its front.
theorem suffix_plain_cases {body u : Text} (hbody : Bare body) (hu : u <:+ plain body) (hne : u ≠ [])
    : u = plain body ∨ ∃ c v, u = c :: v ∧ c ≠ '$' := by
  have hplain := plain_append body []
  rw [List.append_nil] at hplain
  rw [hplain] at hu ⊢
  rcases List.suffix_cons_iff.mp hu with hu | hu
  . exact .inl hu
  . obtain ⟨c, v, rfl⟩ := List.exists_cons_of_ne_nil hne
    refine .inr ⟨c, v, rfl, ?_⟩
    have hc := hu.subset (List.mem_cons_self ..)
    simp only [List.mem_cons, List.mem_append, List.not_mem_nil, or_false] at hc
    rcases hc with rfl | hc | rfl
    . decide
    . exact fun h => hbody.1 (h ▸ hc)
    . decide

theorem not_plain_prefix_cons {name s : Text} {c : Char} (hc : c ≠ '$') : ¬ plain name <+: c :: s := by
  intro ⟨rest, h⟩
  rw [plain_append, List.cons.injEq] at h
  exact hc h.1.symm

theorem plain_prefix_plain_append_iff {name body s : Text} (hname : Bare name) (hbody : Bare body)
    : plain name <+: plain body ++ s ↔ body = name := by
  constructor
  . intro ⟨rest, h⟩
    rw [plain_append, plain_append] at h
    simp only [List.cons.injEq, true_and] at h
    exact (Text.append_cons_inj h hname.2.2 hbody.2.2).1.symm
  . rintro rfl
    exact List.prefix_append ..

theorem replaceAll_assemble {name : Text} (value : Text) {ps : List Piece}
    (hps : ∀ p ∈ ps, p.WellFormed) (hname : Bare name)
    : Text.replaceAll (plain name) value (assemble ps)
        =
      assemble (ps.flatMap (Piece.fill fun body => if body = name then some value else none)) := by
  induction ps with
  | nil => exact Text.replaceAll_nil (plain_ne_nil name)
  | cons p ps ih =>
    rw [List.forall_mem_cons] at hps
    have ih := ih hps.2
    rw [assemble_cons, List.flatMap_cons, assemble_append, ← ih]
    cases p with
    | char c =>
      exact Text.replaceAll_cons_of_not_prefix (plain_ne_nil name) (not_plain_prefix_cons hps.1)
    | placeholder body =>
      by_cases h : body = name
      . rw [Piece.fill_of_some (if_pos h), assemble_map_char, h, Piece.text,
          Text.replaceAll_append_self (plain_ne_nil name)]
      . rw [Piece.fill_of_none (if_neg h), assemble_singleton]
        apply Text.replaceAll_append_of_not_prefix (plain_ne_nil name)
        intro u hu hne
        rcases suffix_plain_cases hps.1 hu hne with rfl | ⟨c, v, rfl, hc⟩
        . rw [plain_prefix_plain_append_iff hname hps.1]
          exact h
        . exact not_plain_prefix_cons hc

def transformOf? (name body : Text) : Option Text :=
  ((name ++ ['.']).isPrefixOf? body).filter fun word => Word word

theorem transformOf?_eq_some_iff {name body word : Text}
    : transformOf? name body = some word ↔ Word word ∧ body = name ++ '.' :: word := by
  unfold transformOf?
  rw [Option.filter_eq_some_iff, Text.isPrefixOf?_eq_some_iff, decide_eq_true_eq, and_comm,
    List.append_assoc, List.singleton_append]

theorem plain_append_point (name word : Text) : plain (name ++ '.' :: word) = transformed name word := by
  have hplain := plain_append (name ++ '.' :: word) []
  have htransformed := transformed_append name word []
  rw [List.append_nil] at hplain htransformed
  rw [hplain, htransformed, List.append_assoc, List.cons_append]

theorem transformAt?_plain_append {name body : Text} (s : Text) (hname : Bare name) (hbody : Bare body)
    : transformAt? name (plain body ++ s) = transformOf? name body := by
  apply Option.ext
  intro word
  rw [transformAt?_eq_some_iff, transformOf?_eq_some_iff]
  constructor
  . intro ⟨hword, rest, h⟩
    rw [plain_append, transformed_append] at h
    simp only [List.cons.injEq, true_and] at h
    rw [← List.cons_append, ← List.append_assoc] at h
    refine ⟨hword, (Text.append_cons_inj h hbody.2.2 ?_).1⟩
    have := hname.2.2
    have := hword.brace_not_mem
    simp [*]
  . intro ⟨hword, h⟩
    exact ⟨hword, s, by rw [h, plain_append_point]⟩

theorem transformAt?_cons_of_ne {name s : Text} {c : Char} (hc : c ≠ '$')
    : transformAt? name (c :: s) = none := by
  cases h : transformAt? name (c :: s) with
  | none => rfl
  | some word =>
    obtain ⟨_, rest, h⟩ := transformAt?_eq_some_iff.mp h
    rw [transformed_append, List.cons.injEq] at h
    exact absurd h.1 hc

variable {transforms : Transforms}

def transformedValue? (transforms : Transforms) (name value body : Text) : Option Text :=
  (transformOf? name body).bind fun word => (transforms.get? word).map fun transform => transform value

theorem substituteTransformed_assemble {name : Text} (value : Text) {ps : List Piece}
    (hps : ∀ p ∈ ps, p.WellFormed) (hname : Bare name)
    : substituteTransformed transforms name value (assemble ps)
        =
      assemble (ps.flatMap (Piece.fill (transformedValue? transforms name value))) := by
  induction ps with
  | nil => exact substituteTransformed_nil
  | cons p ps ih =>
    rw [List.forall_mem_cons] at hps
    rw [assemble_cons, List.flatMap_cons, assemble_append, ← ih hps.2]
    cases p with
    | char c => exact substituteTransformed_cons_of_none (transformAt?_cons_of_ne hps.1)
    | placeholder body =>
      rw [Piece.text]
      cases hof : transformOf? name body with
      | some word =>
        obtain ⟨hword, hbody⟩ := transformOf?_eq_some_iff.mp hof
        have hvalue : transformedValue? transforms name value body
            = (transforms.get? word).map fun transform => transform value := by
          rw [transformedValue?, hof, Option.bind_some]
        rw [hbody, plain_append_point, substituteTransformed_append hword, ← hbody, shownFor]
        cases hget : transforms.get? word with
        | some transform =>
          rw [hget, Option.map_some] at hvalue
          rw [Piece.fill_of_some hvalue, assemble_map_char]
        | none =>
          rw [hget, Option.map_none] at hvalue
          rw [Piece.fill_of_none hvalue, assemble_singleton, Piece.text, hbody, plain_append_point]
      | none =>
        have hvalue : transformedValue? transforms name value body = none := by
          rw [transformedValue?, hof, Option.bind_none]
        rw [Piece.fill_of_none hvalue, assemble_singleton]
        apply substituteTransformed_append_of_none
        intro u hu hne
        rcases suffix_plain_cases hps.1 hu hne with rfl | ⟨c, v, rfl, hc⟩
        . rw [transformAt?_plain_append _ hname hps.1, hof]
        . exact transformAt?_cons_of_ne hc

def valueFor? (transforms : Transforms) (entry : Text × Text) (body : Text) : Option Text :=
  if body = entry.1 then some entry.2 else transformedValue? transforms entry.1 entry.2 body

theorem substitute_assemble {name value : Text} {ps : List Piece} (hps : ∀ p ∈ ps, p.WellFormed)
    (hname : Bare name) (hvalue : '$' ∉ value)
    : substitute transforms (assemble ps) name value
        =
      assemble (ps.flatMap (Piece.fill (valueFor? transforms (name, value)))) := by
  have hfirst : ∀ body shown, (if body = name then some value else none) = some shown →
      '$' ∉ shown := by
    intro body shown h
    split at h
    . rw [Option.some.injEq] at h
      exact h ▸ hvalue
    . simp at h
  have hor : (fun body => (if body = name then some value else none).or
      (transformedValue? transforms name value body)) = valueFor? transforms (name, value) := by
    funext body
    unfold valueFor?
    split <;> simp
  unfold substitute
  rw [replaceAll_assemble value hps hname,
    substituteTransformed_assemble value (wellFormed_of_mem_fill hps hfirst) hname, flatMap_fill_fill, hor]

structure Inert (transforms : Transforms) (entry : Text × Text) : Prop where
  bare : Bare entry.1
  value : '$' ∉ entry.2
  transformed : ∀ transform ∈ transforms.entries, '$' ∉ transform.2 entry.2

instance (entry : Text × Text) : Decidable (Inert transforms entry) :=
  decidable_of_iff (Bare entry.1 ∧ '$' ∉ entry.2 ∧ ∀ transform ∈ transforms.entries, '$' ∉ transform.2 entry.2)
    ⟨fun ⟨h₁, h₂, h₃⟩ => ⟨h₁, h₂, h₃⟩, fun ⟨h₁, h₂, h₃⟩ => ⟨h₁, h₂, h₃⟩⟩

theorem not_mem_of_valueFor? {entry : Text × Text} {c : Char} (hvalue : c ∉ entry.2)
    (htransformed : ∀ transform ∈ transforms.entries, c ∉ transform.2 entry.2) {body value : Text}
    (h : valueFor? transforms entry body = some value) : c ∉ value := by
  unfold valueFor? at h
  split at h
  . rw [Option.some.injEq] at h
    exact h ▸ hvalue
  . obtain ⟨word, _, hget⟩ := Option.bind_eq_some_iff.mp h
    obtain ⟨transform, hlookup, rfl⟩ := Option.map_eq_some_iff.mp hget
    obtain ⟨before, after, hentries, _⟩ := List.lookup_eq_some_iff.mp hlookup
    exact htransformed (word, transform) (by simp [hentries])

def firstValue? (transforms : Transforms) (entries : List (Text × Text)) (body : Text) : Option Text :=
  entries.findSome? fun entry => valueFor? transforms entry body

theorem firstValue?_cons (entry : Text × Text) (entries : List (Text × Text))
    : firstValue? transforms (entry :: entries)
        =
      fun body => (valueFor? transforms entry body).or (firstValue? transforms entries body) := by
  funext body
  unfold firstValue?
  rw [List.findSome?_cons]
  cases valueFor? transforms entry body <;> rfl

theorem flatMap_fill_none (ps : List Piece) : ps.flatMap (Piece.fill fun _ => none) = ps := by
  induction ps with
  | nil => rfl
  | cons p ps ih =>
    rw [List.flatMap_cons, ih]
    cases p <;> rfl

-- The pieces are generalised: each variable is substituted into those that the ones before it leave.
theorem foldl_substitute_assemble {entries : List (Text × Text)}
    (h : ∀ entry ∈ entries, Inert transforms entry) {ps : List Piece} (hps : ∀ p ∈ ps, p.WellFormed)
    : entries.foldl (fun text entry => substitute transforms text entry.1 entry.2) (assemble ps)
        =
      assemble (ps.flatMap (Piece.fill (firstValue? transforms entries))) := by
  induction entries generalizing ps with
  | nil => exact congrArg assemble (flatMap_fill_none ps).symm
  | cons entry entries ih =>
    rw [List.forall_mem_cons] at h
    rw [List.foldl_cons, substitute_assemble hps h.1.bare h.1.value, ih h.2, flatMap_fill_fill,
      firstValue?_cons]
    apply wellFormed_of_mem_fill hps
    intro body value hvalue
    exact not_mem_of_valueFor? h.1.value h.1.transformed hvalue

def Piece.inScope (transforms : Transforms) (scope : Scope) : Piece → Text :=
  Piece.shown (firstValue? transforms scope.entries)

theorem applyScope_assemble {scope : Scope} (h : ∀ entry ∈ scope.entries, Inert transforms entry)
    {ps : List Piece} (hps : ∀ p ∈ ps, p.WellFormed)
    : applyScope transforms (assemble ps) scope = ps.flatMap (Piece.inScope transforms scope) := by
  rw [Piece.inScope, ← assemble_flatMap_fill, ← foldl_substitute_assemble h hps]
  rfl

theorem exists_of_isSome_valueFor? {entry : Text × Text} {body : Text}
    (h : (valueFor? transforms entry body).isSome) : ∃ t, body ++ ['.'] = entry.1 ++ '.' :: t := by
  unfold valueFor? at h
  split at h
  next hbody => exact ⟨[], by rw [hbody]⟩
  next =>
    unfold transformedValue? at h
    cases hof : transformOf? entry.1 body with
    | none => simp [hof] at h
    | some word =>
      obtain ⟨_, hbody⟩ := transformOf?_eq_some_iff.mp hof
      exact ⟨word ++ ['.'], by rw [hbody, List.append_assoc, List.cons_append]⟩

-- A name without points ends at the first point of the body, or with the body.
theorem eq_of_isSome_valueFor? {scope : Scope} (hpoint : ∀ name ∈ scope.keys, '.' ∉ name) {body : Text}
    {a b : Text × Text} (ha : a ∈ scope.entries) (hb : b ∈ scope.entries)
    (hvalue : (valueFor? transforms a body).isSome) (hvalue' : (valueFor? transforms b body).isSome)
    : a = b := by
  obtain ⟨t, ht⟩ := exists_of_isSome_valueFor? hvalue
  obtain ⟨t', ht'⟩ := exists_of_isSome_valueFor? hvalue'
  have hname : a.1 = b.1 := by
    apply (Text.append_cons_inj (ht.symm.trans ht') _ _).1
    . exact hpoint _ (List.mem_map_of_mem ha)
    . exact hpoint _ (List.mem_map_of_mem hb)
  exact List.inj_on_of_nodup_map scope.nodup ha hb hname

theorem firstValue?_eq_some_iff {entries : List (Text × Text)} {body value : Text}
    (hunique : ∀ a ∈ entries, ∀ b ∈ entries, (valueFor? transforms a body).isSome →
      (valueFor? transforms b body).isSome → a = b)
    : firstValue? transforms entries body = some value ↔
        ∃ entry ∈ entries, valueFor? transforms entry body = some value := by
  constructor
  . exact List.exists_of_findSome?_eq_some
  . intro ⟨entry, hentry, hvalue⟩
    cases hfirst : firstValue? transforms entries body with
    | none =>
      rw [List.findSome?_eq_none_iff.mp hfirst entry hentry] at hvalue
      contradiction
    | some first =>
      obtain ⟨other, hother, hvalue'⟩ := List.exists_of_findSome?_eq_some hfirst
      rw [hunique entry hentry other hother (by simp [hvalue]) (by simp [hvalue']), hvalue'] at hvalue
      exact hvalue

theorem firstValue?_perm {scope other : Scope} (hpoint : ∀ name ∈ scope.keys, '.' ∉ name)
    (hperm : other.entries.Perm scope.entries)
    : firstValue? transforms other.entries = firstValue? transforms scope.entries := by
  have hunique : ∀ body, ∀ a ∈ scope.entries, ∀ b ∈ scope.entries,
      (valueFor? transforms a body).isSome → (valueFor? transforms b body).isSome → a = b :=
    fun body a ha b hb => eq_of_isSome_valueFor? hpoint ha hb
  funext body
  apply Option.ext
  intro value
  rw [firstValue?_eq_some_iff (hunique body), firstValue?_eq_some_iff]
  . simp only [hperm.mem_iff]
  . intro a ha b hb
    exact hunique body a (hperm.mem_iff.mp ha) b (hperm.mem_iff.mp hb)

/-- Substituting a scope is simultaneous: every placeholder becomes what the first variable that it can
refer to gives, or stays, and the rest of the text stays. If no name has a point, the order of the
variables makes no difference. -/
theorem applyScope_simultaneous {scope : Scope} (h : ∀ entry ∈ scope.entries, Inert transforms entry)
    {text : Text} (htext : Regular text)
    : (∃ ps, (∀ p ∈ ps, p.WellFormed) ∧ text = assemble ps) ∧
        (∀ ps, (∀ p ∈ ps, p.WellFormed) → text = assemble ps →
          applyScope transforms text scope = ps.flatMap (Piece.inScope transforms scope)) ∧
        ((∀ name ∈ scope.keys, '.' ∉ name) → ∀ other : Scope, other.entries.Perm scope.entries →
          applyScope transforms text other = applyScope transforms text scope) := by
  refine ⟨regular_iff.mp htext, ?_, ?_⟩
  . rintro ps hps rfl
    exact applyScope_assemble h hps
  . intro hpoint other hperm
    obtain ⟨ps, hps, rfl⟩ := regular_iff.mp htext
    have hother : ∀ entry ∈ other.entries, Inert transforms entry :=
      fun entry hentry => h entry (hperm.mem_iff.mp hentry)
    rw [applyScope_assemble h hps, applyScope_assemble hother hps, Piece.inScope, Piece.inScope,
      firstValue?_perm hpoint hperm]

def threePlaceholders : List Piece :=
  [.char '{', .placeholder "b", .char '}', .placeholder "a.capitalized", .placeholder "c"]

def twoVariables : Scope := .ofList [("b", "\x7d\x7b"), ("a", "x y")]

def twoVariablesReversed : Scope := .ofList [("a", "x y"), ("b", "\x7d\x7b")]

theorem wellFormed_threePlaceholders : ∀ p ∈ threePlaceholders, p.WellFormed := by
  decide

theorem inert_twoVariables : ∀ entry ∈ twoVariables.entries, Inert .standard entry := by
  decide +kernel

theorem applyScope_simultaneous_twoVariables
    : applyScope .standard (assemble threePlaceholders) twoVariables
          = "\x7b\x7d\x7b\x7dX Y$\x7bc\x7d" ∧
        applyScope .standard (assemble threePlaceholders) twoVariablesReversed
          = "\x7b\x7d\x7b\x7dX Y$\x7bc\x7d" := by
  have hregular : Regular (assemble threePlaceholders) :=
    regular_iff.mpr ⟨_, wellFormed_threePlaceholders, rfl⟩
  obtain ⟨_, hshown, hperm⟩ := applyScope_simultaneous inert_twoVariables hregular
  have hvalue : applyScope .standard (assemble threePlaceholders) twoVariables
      = "\x7b\x7d\x7b\x7dX Y$\x7bc\x7d" := by
    rw [hshown _ wellFormed_threePlaceholders rfl]
    decide +kernel
  refine ⟨hvalue, ?_⟩
  rw [hperm (by decide) twoVariablesReversed (by decide)]
  exact hvalue

end Placeholder
end Transclusion
