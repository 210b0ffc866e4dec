import Transclusion.Text.Utf8

/-!
This module contains the way of a text into bytes and back (`decode_encode`), and what reading makes of
line breaks: texts without carriage returns stay as they are (`normalizeBreaks_eq_self_iff`).
-/

namespace Transclusion
namespace Utf8

/-! ## Bytes -/

namespace decodePart

variable {b : UInt8} {rest : List UInt8} {bits lo hi : Nat}

theorem go_ascii (hb : b.toNat < 0x80)
    : go none (b :: rest) = (Char.ofNat b.toNat :: (go none rest).1, (go none rest).2) := by
  rw [go, if_pos hb]

theorem go_start {pending : Pending} (hb : 0x80 ≤ b.toNat) (h : start? b.toNat = some pending)
    : go none (b :: rest) = go (some pending) rest := by
  rw [go, if_neg (Nat.not_lt.mpr hb), h]

theorem go_last (hlo : lo ≤ b.toNat) (hhi : b.toNat ≤ hi)
    : go (some ⟨0, bits, lo, hi⟩) (b :: rest)
        =
      (Char.ofNat (bits * 64 + (b.toNat - 0x80)) :: (go none rest).1, (go none rest).2) := by
  rw [go, if_pos (by simp [hlo, hhi])]

theorem go_more {more : Nat} (hlo : lo ≤ b.toNat) (hhi : b.toNat ≤ hi)
    : go (some ⟨more + 1, bits, lo, hi⟩) (b :: rest)
        =
      go (some ⟨more, bits * 64 + (b.toNat - 0x80), 0x80, 0xbf⟩) rest := by
  rw [go, if_pos (by simp [hlo, hhi])]

end decodePart

open decodePart

section Character

variable {v : Nat} {b₁ b₂ b₃ b₄ : UInt8} (rest : List UInt8)

theorem go_two (h : 0x7f < v) (h' : v ≤ 0x7ff) (h₁ : b₁.toNat = v / 64 % 32 + 192)
    (h₂ : b₂.toNat = v % 64 + 128)
    : decodePart.go none (b₁ :: b₂ :: rest)
        =
      (Char.ofNat v :: (decodePart.go none rest).1, (decodePart.go none rest).2) := by
  have hstart : start? b₁.toNat = some ⟨0, b₁.toNat - 0xc0, 0x80, 0xbf⟩ := by
    rw [start?, if_neg (by omega), if_pos (by omega)]
  have hv : (b₁.toNat - 0xc0) * 64 + (b₂.toNat - 0x80) = v := by omega
  rw [go_start (by omega) hstart, go_last (by omega) (by omega), hv]

theorem go_three (h : 0x7ff < v) (h' : v ≤ 0xffff) (hvalid : v < 0xd800 ∨ 0xdfff < v)
    (h₁ : b₁.toNat = v / 4096 % 16 + 224) (h₂ : b₂.toNat = v / 64 % 64 + 128)
    (h₃ : b₃.toNat = v % 64 + 128)
    : decodePart.go none (b₁ :: b₂ :: b₃ :: rest)
        =
      (Char.ofNat v :: (decodePart.go none rest).1, (decodePart.go none rest).2) := by
  have hstart : start? b₁.toNat = some ⟨1, b₁.toNat - 0xe0, if b₁.toNat = 0xe0 then 0xa0 else 0x80,
      if b₁.toNat = 0xed then 0x9f else 0xbf⟩ := by
    rw [start?, if_neg (by omega), if_neg (by omega), if_pos (by omega)]
  -- The first byte keeps overlong forms and surrogates out of the second one.
  have hlo : (if b₁.toNat = 0xe0 then 0xa0 else 0x80) ≤ b₂.toNat := by
    split <;> omega
  have hhi : b₂.toNat ≤ (if b₁.toNat = 0xed then 0x9f else 0xbf) := by
    split <;> omega
  have hv : ((b₁.toNat - 0xe0) * 64 + (b₂.toNat - 0x80)) * 64 + (b₃.toNat - 0x80) = v := by omega
  rw [go_start (by omega) hstart, go_more hlo hhi, go_last (by omega) (by omega), hv]

theorem go_four (h : 0xffff < v) (h' : v < 0x110000) (h₁ : b₁.toNat = v / 262144 % 8 + 240)
    (h₂ : b₂.toNat = v / 4096 % 64 + 128) (h₃ : b₃.toNat = v / 64 % 64 + 128)
    (h₄ : b₄.toNat = v % 64 + 128)
    : decodePart.go none (b₁ :: b₂ :: b₃ :: b₄ :: rest)
        =
      (Char.ofNat v :: (decodePart.go none rest).1, (decodePart.go none rest).2) := by
  have hstart : start? b₁.toNat = some ⟨2, b₁.toNat - 0xf0, if b₁.toNat = 0xf0 then 0x90 else 0x80,
      if b₁.toNat = 0xf4 then 0x8f else 0xbf⟩ := by
    rw [start?, if_neg (by omega), if_neg (by omega), if_neg (by omega), if_pos (by omega)]
  have hlo : (if b₁.toNat = 0xf0 then 0x90 else 0x80) ≤ b₂.toNat := by
    split <;> omega
  have hhi : b₂.toNat ≤ (if b₁.toNat = 0xf4 then 0x8f else 0xbf) := by
    split <;> omega
  have hv : (((b₁.toNat - 0xf0) * 64 + (b₂.toNat - 0x80)) * 64 + (b₃.toNat - 0x80)) * 64
      + (b₄.toNat - 0x80) = v := by omega
  rw [go_start (by omega) hstart, go_more hlo hhi, go_more (by omega) (by omega),
    go_last (by omega) (by omega), hv]

end Character

theorem go_encodeChar (c : Char) (rest : List UInt8)
    : decodePart.go none (String.utf8EncodeChar c ++ rest)
        =
      (c :: (decodePart.go none rest).1, (decodePart.go none rest).2) := by
  have hvalid : c.toNat < 0xd800 ∨ (0xdfff < c.toNat ∧ c.toNat < 0x110000) := c.valid
  have htoNat : c.val.toNat = c.toNat := rfl
  have hbyte : ∀ n, n < 256 → (UInt8.ofNat n).toNat = n := fun n hn => by simp [Nat.mod_eq_of_lt hn]
  unfold String.utf8EncodeChar
  dsimp only
  rw [htoNat]
  conv =>
    rhs
    rw [← Char.ofNat_toNat c]
  split
  next h =>
    have hv := hbyte c.toNat (by omega)
    rw [List.singleton_append, go_ascii (by omega), hv]
  next h =>
    split
    next h' => exact go_two rest (by omega) h' (hbyte _ (by omega)) (hbyte _ (by omega))
    next h' =>
      split
      next h'' =>
        exact go_three rest (by omega) h'' (by omega) (hbyte _ (by omega)) (hbyte _ (by omega))
          (hbyte _ (by omega))
      next h'' =>
        exact go_four rest (by omega) (by omega) (hbyte _ (by omega)) (hbyte _ (by omega))
          (hbyte _ (by omega)) (hbyte _ (by omega))

theorem decode_encode (text : Text) : decode (encode text) = .ok text := by
  have hpart : decodePart.go none (encode text) = (text, none) := by
    induction text with
    | nil => rfl
    | cons c text ih =>
      rw [encode, List.flatMap_cons, go_encodeChar]
      change (c :: (decodePart.go none (encode text)).1, (decodePart.go none (encode text)).2) = _
      rw [ih]
  unfold decode decodePart
  rw [hpart]

theorem encode_inj {a b : Text} (h : encode a = encode b) : a = b := by
  have hdecode := congrArg decode h
  rw [decode_encode, decode_encode] at hdecode
  exact Except.ok.inj hdecode

/-! ## Line breaks -/

theorem normalizeBreaks_cons_of_ne {c : Char} (hc : c ≠ '\r') (rest : Text)
    : normalizeBreaks (c :: rest) = c :: normalizeBreaks rest := by
  rw [normalizeBreaks]
  . exact fun _ h => absurd h hc
  . exact hc

theorem cr_not_mem_normalizeBreaks (t : Text) : '\r' ∉ normalizeBreaks t := by
  fun_induction normalizeBreaks t with
  | case1 => exact List.not_mem_nil
  | case2 rest ih => simp [ih]
  | case3 rest _ ih => simp [ih]
  | case4 c rest _ hc ih =>
    rw [List.mem_cons, not_or]
    exact ⟨fun h => hc h.symm, ih⟩

theorem normalizeBreaks_append_of_not_mem {a : Text} (h : '\r' ∉ a) (b : Text)
    : normalizeBreaks (a ++ b) = a ++ normalizeBreaks b := by
  induction a with
  | nil => rfl
  | cons c a ih =>
    rw [List.mem_cons, not_or] at h
    rw [List.cons_append, normalizeBreaks_cons_of_ne (fun hc => h.1 hc.symm), ih h.2, List.cons_append]

theorem normalizeBreaks_eq_self_iff {t : Text} : normalizeBreaks t = t ↔ '\r' ∉ t := by
  constructor
  . intro h
    rw [← h]
    exact cr_not_mem_normalizeBreaks t
  . intro h
    have happend := normalizeBreaks_append_of_not_mem h []
    rw [List.append_nil] at happend
    rw [happend, normalizeBreaks, List.append_nil]

-- A carriage return at the end of the lead goes into the line feed.
theorem exists_normalizeBreaks_append_newline (lead : Text)
    : ∃ lead', ∀ rest,
        normalizeBreaks (lead ++ '\n' :: rest) = lead' ++ '\n' :: normalizeBreaks rest := by
  fun_induction normalizeBreaks lead with
  | case1 => exact ⟨[], fun rest => normalizeBreaks_cons_of_ne (by decide) rest⟩
  | case2 lead ih =>
    obtain ⟨lead', ih⟩ := ih
    refine ⟨'\n' :: lead', ?_⟩
    intro rest
    rw [List.cons_append, List.cons_append, normalizeBreaks, ih, List.cons_append]
  | case3 lead hlead ih =>
    obtain ⟨lead', ih⟩ := ih
    cases lead with
    | nil =>
      refine ⟨[], ?_⟩
      intro rest
      rw [List.singleton_append, normalizeBreaks, List.nil_append]
    | cons c lead =>
      refine ⟨'\n' :: lead', ?_⟩
      intro rest
      rw [List.cons_append, normalizeBreaks, ih, List.cons_append]
      intro later hlater
      exact hlead lead (by rw [(List.cons.inj hlater).1])
  | case4 c lead _ hc ih =>
    obtain ⟨lead', ih⟩ := ih
    refine ⟨c :: lead', ?_⟩
    intro rest
    rw [List.cons_append, normalizeBreaks_cons_of_ne hc, ih, List.cons_append]

theorem exists_append_of_normalizeBreaks_eq_append {t a b : Text} (h : normalizeBreaks t = a ++ b)
    : ∃ a' b', t = a' ++ b' ∧ normalizeBreaks a' = a ∧ normalizeBreaks b' = b := by
  fun_induction normalizeBreaks t generalizing a with
  | case1 =>
    obtain ⟨rfl, rfl⟩ := List.append_eq_nil_iff.mp h.symm
    exact ⟨[], [], rfl, rfl, rfl⟩
  | case2 rest ih =>
    cases a with
    | nil => exact ⟨[], '\r' :: '\n' :: rest, rfl, rfl, by rw [normalizeBreaks, h, List.nil_append]⟩
    | cons d a =>
      rw [List.cons_append, List.cons.injEq] at h
      obtain ⟨a', b', rfl, rfl, rfl⟩ := ih h.2
      exact ⟨'\r' :: '\n' :: a', b', rfl, by rw [normalizeBreaks, h.1], rfl⟩
  | case3 rest hrest ih =>
    cases a with
    | nil =>
      refine ⟨[], '\r' :: rest, rfl, rfl, ?_⟩
      rw [normalizeBreaks, h, List.nil_append]
      exact hrest
    | cons d a =>
      rw [List.cons_append, List.cons.injEq] at h
      obtain ⟨a', b', rfl, rfl, rfl⟩ := ih h.2
      refine ⟨'\r' :: a', b', rfl, ?_, rfl⟩
      rw [normalizeBreaks, h.1]
      intro later hlater
      exact hrest (later ++ b') (by rw [hlater, List.cons_append])
  | case4 c rest _ hc ih =>
    cases a with
    | nil => exact ⟨[], c :: rest, rfl, rfl, by rw [normalizeBreaks_cons_of_ne hc, h, List.nil_append]⟩
    | cons d a =>
      rw [List.cons_append, List.cons.injEq] at h
      obtain ⟨a', b', rfl, rfl, rfl⟩ := ih h.2
      exact ⟨c :: a', b', rfl, by rw [normalizeBreaks_cons_of_ne hc, h.1], rfl⟩

theorem mem_normalizeBreaks {c : Char} {t : Text} (h : c ∈ t)
    : (if c = '\r' then '\n' else c) ∈ normalizeBreaks t := by
  fun_induction normalizeBreaks t with
  | case1 => simp at h
  | case2 rest ih =>
    rcases List.mem_cons.mp h with rfl | h
    . exact List.mem_cons_self ..
    . rcases List.mem_cons.mp h with rfl | h
      . exact List.mem_cons_self ..
      . exact List.mem_cons_of_mem _ (ih h)
  | case3 rest _ ih =>
    rcases List.mem_cons.mp h with rfl | h
    . exact List.mem_cons_self ..
    . exact List.mem_cons_of_mem _ (ih h)
  | case4 d rest _ hd ih =>
    rcases List.mem_cons.mp h with rfl | h
    . rw [if_neg hd]
      exact List.mem_cons_self ..
    . exact List.mem_cons_of_mem _ (ih h)

theorem mem_of_mem_normalizeBreaks {c : Char} {t : Text} (h : c ∈ normalizeBreaks t)
    : c = '\n' ∨ c ∈ t := by
  fun_induction normalizeBreaks t with
  | case1 => simp at h
  | case2 rest ih =>
    rcases List.mem_cons.mp h with rfl | h
    . exact .inl rfl
    . exact (ih h).imp_right fun hmem => List.mem_cons_of_mem _ (List.mem_cons_of_mem _ hmem)
  | case3 rest _ ih =>
    rcases List.mem_cons.mp h with rfl | h
    . exact .inl rfl
    . exact (ih h).imp_right (List.mem_cons_of_mem _)
  | case4 d rest _ _ ih =>
    rcases List.mem_cons.mp h with rfl | h
    . exact .inr List.mem_cons_self
    . exact (ih h).imp_right (List.mem_cons_of_mem _)

theorem exists_append_of_not_mem {a b t : Text} (ha : '\n' ∉ a) (h : normalizeBreaks t = a ++ b)
    : ∃ b', t = a ++ b' ∧ normalizeBreaks b' = b := by
  obtain ⟨a', b', rfl, rfl, hb⟩ := exists_append_of_normalizeBreaks_eq_append h
  have hcr : '\r' ∉ a' := fun hcr => ha (mem_normalizeBreaks hcr)
  rw [normalizeBreaks_eq_self_iff.mpr hcr]
  exact ⟨b', rfl, hb⟩

theorem infix_of_infix_normalizeBreaks {pattern t : Text} (h : '\n' ∉ pattern)
    (hwithin : pattern <:+: normalizeBreaks t) : pattern <:+: t := by
  obtain ⟨before, after, hwithin⟩ := hwithin
  rw [List.append_assoc] at hwithin
  obtain ⟨before', later, rfl, _, hlater⟩ := exists_append_of_normalizeBreaks_eq_append hwithin.symm
  obtain ⟨after', rfl, _⟩ := exists_append_of_not_mem h hlater
  rw [← List.append_assoc]
  exact List.infix_append before' pattern after'

end Utf8
end Transclusion
