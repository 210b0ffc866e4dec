import Mathlib.Data.Bool.AllAny
import Mathlib.Data.List.Basic
import Mathlib.Data.List.Infix
import Mathlib.Data.List.TakeWhile
import Transclusion.Proofs.Directive.Lines
import Transclusion.Proofs.Directive.Quotes

/-!
This module contains the canonical way to write a directive, with every value in quotes, and how it is
read back: the comment is found where it stands (`exists_findDirectives_eq`), it has the tokens that
were written (`tokenize_text`), and so it has the parameters that were meant (`parse_text`).
-/

namespace Transclusion
namespace Text

theorem strip_of_ends {a b c : Char} (ha : isBlank a = false) (hb : isBlank b = false)
    (hc : isBlank c = true) (t : Text) : strip (a :: (t ++ [b, c])) = a :: (t ++ [b]) := by
  simp [strip, trimBoth, ha, hb, hc]

end Text

namespace Parameters

theorem unquote_of_not_mem {t : Text} (h : '"' ∉ t) : unquote t = t := by
  cases t with
  | nil => rfl
  | cons c t =>
    rw [List.mem_cons, not_or] at h
    simp [unquote, Ne.symm h.1]

/-! ## Bindings -/

def assignment (t : Text) : List (Text × Text) :=
  if '=' ∈ t then
    [(t.takeWhile (· != '='), ((t.dropWhile (· != '=')).drop 1).takeWhile (· != '='))]
  else []

theorem assignment_of_not_mem {t : Text} (h : '=' ∉ t) : assignment t = [] :=
  if_neg h

theorem takeWhile_ne_of_not_mem {t : Text} (h : '=' ∉ t) : t.takeWhile (· != '=') = t := by
  rw [List.takeWhile_eq_self_iff]
  intro c hc
  rw [bne_iff_ne]
  intro heq
  exact h (heq ▸ hc)

theorem takeWhile_ne_append {t : Text} (h : '=' ∉ t) (rest : Text)
    : (t ++ '=' :: rest).takeWhile (· != '=') = t := by
  rw [List.takeWhile_append, takeWhile_ne_of_not_mem h]
  simp

theorem dropWhile_ne_append {t : Text} (h : '=' ∉ t) (rest : Text)
    : (t ++ '=' :: rest).dropWhile (· != '=') = '=' :: rest := by
  have hparts := List.takeWhile_append_dropWhile (p := (· != '=')) (l := t ++ '=' :: rest)
  rw [takeWhile_ne_append h] at hparts
  exact List.append_cancel_left hparts

theorem exists_splitOn_equals (t : Text)
    : ∃ later, t.splitOn '=' = t.takeWhile (· != '=') :: later := by
  by_cases h : '=' ∈ t
  . obtain ⟨a, rest, rfl, ha⟩ := List.eq_append_cons_of_mem h
    rw [List.splitOn_append_cons_self_of_not_mem ha, takeWhile_ne_append ha]
    exact ⟨_, rfl⟩
  . rw [List.splitOn_eq_singleton h, takeWhile_ne_of_not_mem h]
    exact ⟨[], rfl⟩

theorem toList_binding? {t : Text} (h : '"' ∉ t) : (binding? t).toList = assignment t := by
  unfold assignment
  by_cases hmem : '=' ∈ t
  . obtain ⟨a, rest, rfl, ha⟩ := List.eq_append_cons_of_mem hmem
    obtain ⟨later, hrest⟩ := exists_splitOn_equals rest
    have hvalue : '"' ∉ rest.takeWhile (· != '=') := by
      intro hquote
      apply h
      rw [List.mem_append, List.mem_cons]
      exact .inr (.inr ((List.takeWhile_prefix _).subset hquote))
    rw [if_pos hmem, takeWhile_ne_append ha, dropWhile_ne_append ha, binding?,
      List.splitOn_append_cons_self_of_not_mem ha, hrest]
    simp [unquote_of_not_mem hvalue]
  . rw [if_neg hmem, binding?_eq_none_iff.mpr hmem]
    rfl

theorem assignment_append {name value : Text} (hname : '=' ∉ name) (hvalue : '=' ∉ value)
    : assignment (name ++ '=' :: value) = [(name, value)] := by
  unfold assignment
  rw [if_pos (by simp), takeWhile_ne_append hname, dropWhile_ne_append hname]
  simp [takeWhile_ne_of_not_mem hvalue]

/-! ## Tokens -/

theorem valueAfter?_of_not_mem {keyword : Text} {tokens : List Text} (h : keyword ∉ tokens)
    : valueAfter? keyword tokens = none := by
  have := valueAfter?_append_of_not_mem h []
  rwa [List.append_nil] at this

theorem valueAfter?_flatMap {keyword : Text} {later : List Text} (h : keyword ∉ later)
    (value : Option Text)
    : valueAfter? keyword (value.toList.flatMap (fun value => [keyword, value]) ++ later) = value := by
  cases value with
  | none => exact valueAfter?_of_not_mem h
  | some value => simp [valueAfter?]

-- A separator at the very end neither begins nor ends a token.
theorem go_append_separator {c : Char} (hquote : c ≠ '"') (hc : isSeparator c = true) (quoted : Bool)
    (token : Option Text) (t : Text)
    : quotedTokens?.go quoted token (t ++ [c]) = quotedTokens?.go quoted token t := by
  induction t generalizing quoted token with
  | nil => cases quoted <;> cases token <;> simp [quotedTokens?.go, hquote, hc]
  | cons d t ih =>
    rw [List.cons_append, go_cons, go_cons, ih, ih, ih]

theorem go_none_cons {c : Char} (hc : isSeparator c = false) (rest : Text)
    : quotedTokens?.go false none (c :: rest) = quotedTokens?.go false (some []) (c :: rest) := by
  rw [go_cons, go_cons, hc]
  rfl

theorem go_quoted {value : Text} (h : '"' ∉ value) (token rest : Text)
    : quotedTokens?.go false (some token) ('"' :: (value ++ '"' :: ' ' :: rest))
        =
      (quotedTokens?.go false none rest).map ((token.reverse ++ value) :: ·) := by
  rw [go_cons, if_pos rfl, Option.getD_some, Bool.not_false, go_append_run, go_cons, if_pos rfl,
    Option.getD_some, Bool.not_true, go_cons, if_neg (by decide), if_pos (by decide)]
  . dsimp only
    rw [List.reverse_append, List.reverse_reverse]
  . intro c hc
    refine ⟨?_, by simp⟩
    intro heq
    exact h (heq ▸ hc)

end Parameters

namespace Directive

open Parameters

/-! ## Writing -/

structure Writable (t : Text) : Prop where
  quote_not_mem : '"' ∉ t
  newline_not_mem : '\n' ∉ t
  commentEnd_not_infix : ¬ commentEnd <:+: t

instance (t : Text) : Decidable (Writable t) :=
  decidable_of_iff ('"' ∉ t ∧ '\n' ∉ t ∧ ¬ commentEnd <:+: t)
    ⟨fun ⟨h₁, h₂, h₃⟩ => ⟨h₁, h₂, h₃⟩, fun ⟨h₁, h₂, h₃⟩ => ⟨h₁, h₂, h₃⟩⟩

structure Bare (t : Text) : Prop extends Writable t where
  ne_nil : t ≠ []
  not_separator : ∀ c ∈ t, isSeparator c = false

theorem Bare.run {t : Text} (h : Bare t)
    : ∀ c ∈ t, c ≠ '"' ∧ (false = false → isSeparator c = false) := by
  intro c hc
  refine ⟨?_, fun _ => h.not_separator c hc⟩
  intro heq
  exact h.quote_not_mem (heq ▸ hc)

theorem bare_include : Bare "include" :=
  ⟨by decide +kernel, by decide, List.all_iff_forall_prop.mp (by decide)⟩

theorem bare_variables : Bare "variables" :=
  ⟨by decide +kernel, by decide, List.all_iff_forall_prop.mp (by decide)⟩

theorem bare_where : Bare "where" :=
  ⟨by decide +kernel, by decide, List.all_iff_forall_prop.mp (by decide)⟩

inductive Part
  | keyword (word value : Text)
  | binding (name value : Text)

namespace Part

def word : Part → Text
  | keyword word _ | binding word _ => word

def value : Part → Text
  | keyword _ value | binding _ value => value

def sign : Part → Char
  | keyword _ _ => ' '
  | binding _ _ => '='

def text (p : Part) : Text :=
  p.word ++ p.sign :: '"' :: (p.value ++ '"' :: [' '])

def tokens : Part → List Text
  | keyword word value => [word, value]
  | binding name value => [name ++ '=' :: value]

structure Clear (p : Part) : Prop where
  bare : Bare p.word
  writable : Writable p.value

theorem go_text_append {p : Part} (h : p.Clear) (rest : Text)
    : quotedTokens?.go false none (p.text ++ rest)
        =
      (quotedTokens?.go false none rest).map (p.tokens ++ ·) := by
  have hbegin : ∀ after, quotedTokens?.go false none (p.word ++ after)
      = quotedTokens?.go false (some p.word.reverse) after := by
    intro after
    obtain ⟨c, word, hword⟩ := List.exists_cons_of_ne_nil h.bare.ne_nil
    have hc := h.bare.not_separator c (by simp [hword])
    have hrun := go_append_run h.bare.run [] after
    rw [List.append_nil] at hrun
    rw [← hrun, hword, List.cons_append, go_none_cons hc]
  have hvalue := h.writable.quote_not_mem
  unfold text
  simp only [List.append_assoc, List.cons_append, List.nil_append]
  rw [hbegin]
  cases p with
  | keyword word value =>
    rw [sign, go_cons, if_neg (by decide), if_pos (by decide)]
    dsimp only
    rw [go_none_cons (by decide), go_quoted hvalue, Option.map_map, List.reverse_reverse]
    rfl
  | binding name value =>
    have hequals : ∀ c ∈ ['='], c ≠ '"' ∧ (false = false → isSeparator c = false) :=
      List.all_iff_forall_prop.mp (by decide)
    have hrun := go_append_run hequals name.reverse ('"' :: (value ++ '"' :: ' ' :: rest))
    rw [List.singleton_append] at hrun
    have hvalue : '"' ∉ value := hvalue
    rw [sign, word, Part.value, hrun, go_quoted hvalue]
    simp [tokens]

theorem go_flatMap_text {parts : List Part} (h : ∀ p ∈ parts, p.Clear)
    : quotedTokens?.go false none (parts.flatMap text) = some (parts.flatMap tokens) := by
  induction parts with
  | nil => rfl
  | cons p parts ih =>
    rw [List.flatMap_cons, go_text_append (h p (by simp)), ih fun q hq => h q (by simp [hq])]
    rfl

theorem newline_not_mem_text {p : Part} (h : p.Clear) : '\n' ∉ p.text := by
  have hword := h.bare.newline_not_mem
  have hvalue := h.writable.newline_not_mem
  cases p <;> simp_all [text, sign]

theorem exists_flatMap_text {parts : List Part} (h : parts ≠ [])
    : ∃ t, parts.flatMap text = t ++ ['"', ' '] := by
  obtain hnil | ⟨before, last, hlast⟩ := List.eq_nil_or_concat parts
  . exact absurd hnil h
  . refine ⟨before.flatMap text ++ (last.word ++ last.sign :: '"' :: last.value), ?_⟩
    rw [hlast, List.concat_eq_append, List.flatMap_append, List.flatMap_singleton, text]
    simp

end Part

/-! ## The comment -/

theorem commentEnd_not_infix_append {u v : Text} {c : Char} (hc : c ∉ commentEnd)
    (hu : ¬ commentEnd <:+: u) (hv : ¬ commentEnd <:+: v) : ¬ commentEnd <:+: u ++ c :: v := by
  induction u with
  | nil =>
    rw [List.nil_append, List.infix_cons_iff, not_or]
    refine ⟨?_, hv⟩
    intro hstarts
    have := (Text.prefix_append_cons_iff (u := []) hc).mp hstarts
    simp [commentEnd] at this
  | cons d u ih =>
    rw [List.infix_cons_iff, not_or] at hu
    rw [List.cons_append, List.infix_cons_iff, not_or, ← List.cons_append,
      Text.prefix_append_cons_iff hc]
    exact ⟨hu.1, ih hu.2⟩

theorem commentEnd_not_infix_flatMap {parts : List Part} (h : ∀ p ∈ parts, p.Clear)
    : ¬ commentEnd <:+: parts.flatMap Part.text := by
  induction parts with
  | nil => simp [commentEnd]
  | cons p parts ih =>
    have hclear := h p (by simp)
    have hsign : p.sign ∉ commentEnd := by
      cases p
      all_goals rw [Part.sign]; decide
    have htext : (p :: parts).flatMap Part.text
        = p.word ++ p.sign :: ([] ++ '"' :: (p.value ++ '"' :: ([] ++ ' ' :: parts.flatMap Part.text))) := by
      simp [Part.text]
    have hnil : ¬ commentEnd <:+: [] := by simp [commentEnd]
    rw [htext]
    apply commentEnd_not_infix_append hsign hclear.bare.commentEnd_not_infix
    apply commentEnd_not_infix_append (by decide) hnil
    apply commentEnd_not_infix_append (by decide) hclear.writable.commentEnd_not_infix
    apply commentEnd_not_infix_append (by decide) hnil
    exact ih fun q hq => h q (by simp [hq])

theorem upToCommentEnd_append {t : Text} (hnewline : '\n' ∉ t) (hend : ¬ commentEnd <:+: t)
    (after : Text)
    : upToCommentEnd (t ++ ' ' :: (commentEnd ++ after)) = some (t ++ [' ']) := by
  induction t with
  | nil => rfl
  | cons c t ih =>
    rw [List.mem_cons, not_or] at hnewline
    rw [List.infix_cons_iff, not_or] at hend
    have hhere : commentEnd.isPrefixOf (c :: (t ++ ' ' :: (commentEnd ++ after))) = false := by
      rw [Bool.eq_false_iff, Ne, List.isPrefixOf_iff_prefix, ← List.cons_append,
        Text.prefix_append_cons_iff (by decide)]
      exact hend.1
    rw [List.cons_append, upToCommentEnd, hhere, ih hnewline.2 hend.2]
    . rfl
    . exact Ne.symm hnewline.1

structure Canonical where
  name : Text
  variablesFile : Option Text
  condition : Option Text
  bindings : List (Text × Text)
  writable : ∀ t ∈ name :: (variablesFile.toList ++ condition.toList ++
    bindings.flatMap fun binding => [binding.1, binding.2]), Writable t
  not_keyword : ∀ t ∈ name :: (variablesFile.toList ++ condition.toList),
    t ≠ "variables".toList ∧ t ≠ "where".toList
  equals_not_mem : ∀ t ∈ name :: (variablesFile.toList ++
    bindings.flatMap fun binding => [binding.1, binding.2]), '=' ∉ t
  isName : ∀ binding ∈ bindings, binding.1 ≠ [] ∧ ∀ c ∈ binding.1, Text.isBlank c = false

namespace Canonical

def parts (d : Canonical) : List Part :=
  .keyword "include" d.name :: (d.variablesFile.toList.map (.keyword "variables") ++
    d.condition.toList.map (.keyword "where") ++
    d.bindings.map fun (name, value) => .binding name value)

def text (d : Canonical) : Text :=
  d.parts.flatMap Part.text

def comment (d : Canonical) : Text :=
  commentLead ++ d.text ++ commentEnd

def parameters (d : Canonical) : Parameters where
  name := some d.name
  variablesFile := d.variablesFile
  condition := d.condition
  bindings := .ofList (d.condition.toList.flatMap assignment ++ d.bindings)

theorem clear_of_mem_parts {d : Canonical} {p : Part} (h : p ∈ d.parts) : p.Clear := by
  have hwritable := d.writable
  simp only [parts, List.mem_cons, List.mem_append, List.mem_map] at h
  simp only [List.mem_cons, List.mem_append, List.mem_flatMap] at hwritable
  rcases h with rfl | (⟨value, hvalue, rfl⟩ | ⟨value, hvalue, rfl⟩) | ⟨binding, hbinding, rfl⟩
  . exact ⟨bare_include, hwritable _ (.inl rfl)⟩
  . exact ⟨bare_variables, hwritable _ (.inr (.inl (.inl hvalue)))⟩
  . exact ⟨bare_where, hwritable _ (.inr (.inl (.inr hvalue)))⟩
  . obtain ⟨hne, hblank⟩ := d.isName binding hbinding
    refine ⟨⟨hwritable _ (.inr (.inr ⟨binding, hbinding, .inl rfl⟩)), hne, ?_⟩,
      hwritable _ (.inr (.inr ⟨binding, hbinding, .inr (.inl rfl)⟩))⟩
    intro c hc
    rw [Bool.eq_false_iff]
    intro hseparator
    have := hblank c hc
    rw [isBlank_of_isSeparator hseparator] at this
    simp at this

theorem exists_text_eq (d : Canonical) : ∃ t, d.text = includeLead ++ (t ++ ['"', ' ']) := by
  have hfirst : (Part.keyword "include" d.name).text
      = includeLead ++ ('"' :: d.name ++ ['"', ' ']) := by
    have hlead : includeLead = "include".toList ++ [' '] := by rfl
    rw [hlead, Part.text, Part.word, Part.sign, Part.value]
    simp only [List.append_assoc, List.cons_append, List.nil_append]
  unfold text parts
  rw [List.flatMap_cons, hfirst]
  generalize d.variablesFile.toList.map (Part.keyword "variables") ++ _ ++ _ = more
  by_cases hmore : more = []
  . refine ⟨'"' :: d.name, ?_⟩
    rw [hmore, List.flatMap_nil, List.append_nil]
  . obtain ⟨t, ht⟩ := Part.exists_flatMap_text hmore
    refine ⟨'"' :: d.name ++ ['"', ' '] ++ t, ?_⟩
    rw [ht]
    simp only [List.append_assoc]

/-! ## Reading -/

theorem tokenize_text (d : Canonical) : tokenize d.text = d.parts.flatMap Part.tokens := by
  have htokens := Part.go_flatMap_text fun p hp => clear_of_mem_parts (d := d) hp
  obtain ⟨t, ht⟩ := d.exists_text_eq
  have hends : d.text = 'i' :: ("nclude ".toList ++ t ++ ['"', ' ']) := by
    have hlead : includeLead = 'i' :: "nclude ".toList := by rfl
    rw [ht, hlead]
    simp only [List.append_assoc, List.cons_append]
  have hstrip : d.text = Text.strip d.text ++ [' '] := by
    rw [hends, Text.strip_of_ends (by decide) (by decide) (by decide)]
    simp
  change quotedTokens?.go false none d.text = _ at htokens
  rw [hstrip, go_append_separator (by decide) (by decide)] at htokens
  unfold tokenize quotedTokens?
  rw [htokens]

theorem parametersAt?_comment (d : Canonical) (after : Text)
    : parametersAt? (d.comment ++ after) = some d.text := by
  have hclear := fun p hp => clear_of_mem_parts (d := d) (p := p) hp
  obtain ⟨t, ht⟩ := d.exists_text_eq
  have hend : ¬ commentEnd <:+: d.text := commentEnd_not_infix_flatMap hclear
  have hnewline : '\n' ∉ d.text := by
    unfold text
    rw [List.mem_flatMap]
    rintro ⟨p, hp, hmem⟩
    exact Part.newline_not_mem_text (hclear p hp) hmem
  have hinner : d.text = includeLead ++ ((t ++ ['"']) ++ [' ']) := by
    rw [ht]
    simp
  have hcomment : d.comment ++ after
      = (commentLead ++ includeLead) ++ ((t ++ ['"']) ++ ' ' :: (commentEnd ++ after)) := by
    rw [comment, hinner]
    simp only [List.append_assoc, List.cons_append, List.nil_append]
  unfold parametersAt?
  rw [Text.isPrefixOf?_eq_some_iff.mpr hcomment]
  dsimp only
  rw [upToCommentEnd_append, Option.map_some, ← hinner]
  . rw [hinner] at hnewline
    simp only [List.mem_append, not_or] at hnewline ⊢
    exact hnewline.2.1
  . intro hwithin
    apply hend
    rw [hinner]
    exact hwithin.trans ((List.infix_append [] _ _).trans (List.suffix_append _ _).isInfix)

theorem tokens_eq (d : Canonical)
    : d.parts.flatMap Part.tokens
        =
      ["include".toList, d.name] ++
        (d.variablesFile.toList.flatMap (fun value => ["variables".toList, value]) ++
          (d.condition.toList.flatMap (fun value => ["where".toList, value]) ++
            d.bindings.map fun (name, value) => name ++ '=' :: value)) := by
  unfold parts
  rw [List.flatMap_cons, List.flatMap_append, List.flatMap_append, List.flatMap_map, List.flatMap_map,
    List.flatMap_map, List.append_assoc, List.map_eq_flatMap]
  rfl

theorem not_mem_bindings {keyword : Text} (h : '=' ∉ keyword) (bindings : List (Text × Text))
    : keyword ∉ bindings.map fun (name, value) => name ++ '=' :: value := by
  intro hmem
  obtain ⟨binding, _, rfl⟩ := List.mem_map.mp hmem
  simp at h

theorem variablesFile_tokens (d : Canonical)
    : valueAfter? "variables" (d.parts.flatMap Part.tokens) = d.variablesFile := by
  have hkeyword := d.not_keyword
  simp only [List.mem_cons, List.mem_append] at hkeyword
  rw [tokens_eq, valueAfter?_append_of_not_mem, valueAfter?_flatMap]
  . simp only [List.mem_append, List.mem_flatMap, List.mem_cons, List.not_mem_nil, or_false, not_or]
    refine ⟨?_, not_mem_bindings (by decide) _⟩
    rintro ⟨value, hvalue, h | h⟩
    . revert h
      decide
    . exact (hkeyword value (.inr (.inr hvalue))).1 h.symm
  . simp only [List.mem_cons, List.not_mem_nil, or_false, not_or]
    exact ⟨by decide, Ne.symm (hkeyword _ (.inl rfl)).1⟩

theorem condition_tokens (d : Canonical)
    : valueAfter? "where" (d.parts.flatMap Part.tokens) = d.condition := by
  have hkeyword := d.not_keyword
  simp only [List.mem_cons, List.mem_append] at hkeyword
  rw [tokens_eq, ← List.append_assoc, valueAfter?_append_of_not_mem,
    valueAfter?_flatMap (not_mem_bindings (by decide) _)]
  simp only [List.mem_append, List.mem_flatMap, List.mem_cons, List.not_mem_nil, or_false, not_or]
  refine ⟨⟨by decide, Ne.symm (hkeyword _ (.inl rfl)).2⟩, ?_⟩
  rintro ⟨value, hvalue, h | h⟩
  . revert h
    decide
  . exact (hkeyword value (.inr (.inl hvalue))).2 h.symm

theorem quote_not_mem_tokens (d : Canonical) : ∀ token ∈ d.parts.flatMap Part.tokens, '"' ∉ token := by
  intro token htoken
  obtain ⟨p, hp, hmem⟩ := List.mem_flatMap.mp htoken
  have hclear := clear_of_mem_parts hp
  have hword := hclear.bare.quote_not_mem
  have hvalue := hclear.writable.quote_not_mem
  cases p with
  | keyword word value =>
    rcases List.mem_cons.mp hmem with rfl | hmem
    . exact hword
    . rw [List.mem_singleton.mp hmem]
      exact hvalue
  | binding name value =>
    rw [List.mem_singleton.mp hmem, List.mem_append, List.mem_cons, not_or, not_or]
    exact ⟨hword, by decide, hvalue⟩

theorem assignments_bindings {bindings : List (Text × Text)}
    (h : ∀ binding ∈ bindings, '=' ∉ binding.1 ∧ '=' ∉ binding.2)
    : (bindings.map fun (name, value) => name ++ '=' :: value).flatMap assignment = bindings := by
  induction bindings with
  | nil => rfl
  | cons binding bindings ih =>
    obtain ⟨hname, hvalue⟩ := h binding (by simp)
    rw [List.map_cons, List.flatMap_cons, assignment_append hname hvalue,
      ih fun other hother => h other (by simp [hother])]
    rfl

theorem assignments_keyword {keyword : Text} (h : '=' ∉ keyword) (value : Option Text)
    : (value.toList.flatMap fun value => [keyword, value]).flatMap assignment
        =
      value.toList.flatMap assignment := by
  cases value with
  | none => rfl
  | some value =>
    rw [Option.toList_some, List.flatMap_singleton, List.flatMap_cons, assignment_of_not_mem h,
      List.nil_append, List.flatMap_singleton]

theorem assignments_tokens (d : Canonical)
    : (d.parts.flatMap Part.tokens).flatMap assignment
        =
      d.condition.toList.flatMap assignment ++ d.bindings := by
  have hequals := d.equals_not_mem
  simp only [List.mem_cons, List.mem_append] at hequals
  have hname : ["include".toList, d.name].flatMap assignment = [] := by
    rw [List.flatMap_cons, List.flatMap_singleton, assignment_of_not_mem (by decide),
      assignment_of_not_mem (hequals _ (.inl rfl))]
    rfl
  have hvariables : d.variablesFile.toList.flatMap assignment = [] := by
    rw [List.flatMap_eq_nil_iff]
    intro value hvalue
    exact assignment_of_not_mem (hequals _ (.inr (.inl hvalue)))
  have hbindings : ∀ binding ∈ d.bindings, '=' ∉ binding.1 ∧ '=' ∉ binding.2 := by
    intro binding hbinding
    constructor
    all_goals
      apply hequals _ (.inr (.inr (List.mem_flatMap.mpr ⟨binding, hbinding, _⟩)))
      simp
  rw [tokens_eq, List.flatMap_append, List.flatMap_append, List.flatMap_append, hname,
    assignments_keyword (by decide), assignments_keyword (by decide), hvariables,
    assignments_bindings hbindings]
  rfl

theorem parse_text (d : Canonical) : Parameters.parse d.text = d.parameters := by
  have hname : valueAfter? "include" (d.parts.flatMap Part.tokens) = some d.name := by
    rw [tokens_eq]
    simp [valueAfter?]
  have hbindings : (d.parts.flatMap Part.tokens).filterMap binding?
      = d.condition.toList.flatMap assignment ++ d.bindings := by
    rw [List.filterMap_eq_flatMap_toList, ← assignments_tokens]
    apply List.flatMap_congr
    intro token htoken
    exact toList_binding? (d.quote_not_mem_tokens token htoken)
  rw [Parameters.parse, tokenize_text, ofTokens, hname, variablesFile_tokens, condition_tokens, hbindings]
  rfl

end Canonical

end Directive

theorem Outline.go_indent {indent : Text} (h : ∀ c ∈ indent, Text.isIndent c = true)
    (before rest : Text)
    : ofText.go 0 before (indent ++ rest) = ofText.go 0 (indent.reverse ++ before) rest := by
  induction indent generalizing before with
  | nil => rfl
  | cons c indent ih =>
    have hnone : Directive.parametersAt? (c :: (indent ++ rest)) = none := by
      have hc := h c (by simp)
      simp only [Text.isIndent, Bool.or_eq_true, beq_iff_eq] at hc
      rcases hc with rfl | rfl <;> rfl
    rw [List.cons_append, go_of_parametersAt?_eq_none hnone, ih fun d hd => h d (by simp [hd])]
    simp

theorem Outline.indentOf_reverse {indent : Text} (h : ∀ c ∈ indent, Text.isIndent c = true)
    : indentOf indent.reverse = indent := by
  unfold indentOf
  rw [List.takeWhile_eq_self_iff.mpr, List.reverse_reverse]
  intro c hc
  exact h c (List.mem_reverse.mp hc)

namespace Directive
namespace Canonical

def located (d : Canonical) (indent : Text) (start : Nat) : Located where
  directive := { indent, parameters := d.text }
  start := start
  stop := start + d.comment.length

theorem exists_findDirectives_eq (d : Canonical) {indent : Text}
    (h : ∀ c ∈ indent, Text.isIndent c = true) (after : Text)
    : ∃ later, findDirectives (indent ++ (d.comment ++ after))
        =
      d.located indent indent.length :: later := by
  have hsome := d.parametersAt?_comment after
  obtain ⟨c, comment, hcomment⟩ : ∃ c comment, d.comment ++ after = c :: comment := ⟨_, _, rfl⟩
  rw [hcomment] at hsome
  unfold findDirectives Outline.ofText
  rw [Outline.go_indent h, hcomment, Outline.ofText.go, hsome]
  dsimp only
  rw [locate, List.append_nil, Outline.indentOf_reverse h, List.reverse_reverse, Nat.zero_add]
  exact ⟨_, rfl⟩

/-- A directive in canonical form is found where it stands in a text, and its parameters are what it
was written from. -/
theorem canonical_read_back (d : Canonical) {indent : Text}
    (h : ∀ c ∈ indent, Text.isIndent c = true) (before after : Text)
    : ∃ l ∈ findDirectives (before ++ '\n' :: (indent ++ (d.comment ++ after))),
        l.start = before.length + 1 + indent.length ∧
        l.stop = l.start + d.comment.length ∧
        l.directive.indent = indent ∧
        l.directive.text = d.comment ∧
        Parameters.parse l.directive.parameters = d.parameters := by
  obtain ⟨later, hlater⟩ := d.exists_findDirectives_eq h after
  refine ⟨(d.located indent indent.length).shift (before.length + 1), ?_, ?_, ?_, rfl, rfl,
    d.parse_text⟩
  . rw [findDirectives_append_newline, hlater]
    simp
  . exact Nat.add_comm _ _
  . simp only [Located.shift, located]
    omega

def twoBindings : List (Text × Text) :=
  [(['k'], "1 -> 2"), (['k'], "where")]

theorem writable_guarded : ∀ t ∈ "a b".toList :: ((some "include".toList).toList ++
    (some "x==y".toList).toList ++ twoBindings.flatMap fun binding => [binding.1, binding.2]),
      Writable t := by
  decide +kernel

theorem not_keyword_guarded : ∀ t ∈ "a b".toList :: ((some "include".toList).toList ++
    (some "x==y".toList).toList), t ≠ "variables".toList ∧ t ≠ "where".toList := by
  decide +kernel

theorem equals_not_mem_guarded : ∀ t ∈ "a b".toList :: ((some "include".toList).toList ++
    twoBindings.flatMap fun binding => [binding.1, binding.2]), '=' ∉ t := by
  decide +kernel

theorem isName_guarded
    : ∀ binding ∈ twoBindings, binding.1 ≠ [] ∧ ∀ c ∈ binding.1, Text.isBlank c = false := by
  have hname : ∀ binding ∈ twoBindings, binding.1 = ['k'] := by decide
  intro binding hbinding
  rw [hname binding hbinding]
  exact ⟨by decide, List.all_iff_forall_prop.mp (by decide)⟩

def guarded : Canonical where
  name := "a b"
  variablesFile := some "include"
  condition := some "x==y"
  bindings := twoBindings
  writable := writable_guarded
  not_keyword := not_keyword_guarded
  equals_not_mem := equals_not_mem_guarded
  isName := isName_guarded

theorem canonical_read_back_guarded
    : ∃ l ∈ findDirectives ("<!-- include\n \t<!-- include \"a b\" variables \"include\" where " ++
          "\"x==y\" k=\"1 -> 2\" k=\"where\" --> -->"),
        l.start = 15 ∧ l.directive.indent = " \t".toList ∧
        (Parameters.parse l.directive.parameters).name = some "a b".toList ∧
        (Parameters.parse l.directive.parameters).variablesFile = some "include".toList ∧
        (Parameters.parse l.directive.parameters).condition = some "x==y".toList ∧
        (Parameters.parse l.directive.parameters).bindings.entries
          = [(['x'], []), (['k'], "where".toList)] := by
  have hindent : ∀ c ∈ (" \t" : Text), Text.isIndent c = true := List.all_eq_true.mp (by decide)
  obtain ⟨l, hl, hstart, _, hindent, _, hparse⟩ :=
    guarded.canonical_read_back hindent "<!-- include" " -->"
  refine ⟨l, ?_, hstart, hindent, ?_⟩
  . exact hl
  . rw [hparse]
    exact ⟨rfl, rfl, rfl, by decide +kernel⟩

end Canonical
end Directive
end Transclusion
