import Mathlib.Data.List.Forall2
import Transclusion.Expansion

/-!
This module contains how steps of an expansion are put together: what a sequence of steps does, what
every step does to the progress (`Moves`), and when two steps do the same from different progress
(`Alike`), or what one of them does the other one does too (`Follows`). Each of them is kept by
sequences and by going through a list.
-/

namespace Transclusion
namespace Expansion

variable {α β γ δ ι : Type}

namespace Run

theorem exec_pure (a : α) (p : Progress) : (pure a : Run α).exec p = (.ok a, p) := by rfl

theorem exec_bind (r : Run α) (f : α → Run β) (p : Progress)
    : (r >>= f).exec p
        =
      match r.exec p with
      | (.ok a, q) => (f a).exec q
      | (.error e, q) => (.error e, q) := by
  unfold exec
  change (match r.run.run p with | (a, q) => (ExceptT.bindCont f a).run q) = _
  split
  next a q h =>
    rw [h]
    cases a <;> rfl

theorem exec_bind_of_ok {r : Run α} {f : α → Run β} {p q : Progress} {a : α}
    (h : r.exec p = (.ok a, q)) : (r >>= f).exec p = (f a).exec q := by
  rw [exec_bind, h]

theorem exec_bind_of_error {r : Run α} {f : α → Run β} {p q : Progress} {e : Failure}
    (h : r.exec p = (.error e, q)) : (r >>= f).exec p = (.error e, q) := by
  rw [exec_bind, h]

theorem exec_bind_eq_ok {r : Run α} {f : α → Run β} {p q : Progress} {b : β}
    (h : (r >>= f).exec p = (.ok b, q))
    : ∃ a p', r.exec p = (.ok a, p') ∧ (f a).exec p' = (.ok b, q) := by
  rw [exec_bind] at h
  split at h
  next a p' hr => exact ⟨a, p', hr, h⟩
  next => simp at h

theorem outcome_bind {r : Run α} {f : α → Run β} (g : α → Except Failure β)
    (h : ∀ a q, ((f a).exec q).1 = g a) (p : Progress)
    : ((r >>= f).exec p).1 = (r.exec p).1 >>= g := by
  rw [exec_bind]
  cases r.exec p with
  | mk outcome q =>
    cases outcome with
    | error e => rfl
    | ok a => exact h a q

theorem exec_throw (e : Failure) (p : Progress) : (throw e : Run α).exec p = (.error e, p) := by rfl

theorem exec_ofExcept (x : Except Failure α) (p : Progress)
    : (ofExcept x : Run α).exec p = (x, p) := by
  cases x <;> rfl

end Run

theorem eq_ok_of_toOption {x : Except Failure α} {a : α} (h : x.toOption = some a) : x = .ok a := by
  cases x with
  | error e => simp [Except.toOption] at h
  | ok b => simpa [Except.toOption] using h

theorem eq_of_toOption {σ : Type} {x : Except Failure α × σ} {a : α} (h : x.1.toOption = some a)
    : x = (.ok a, x.2) :=
  Prod.ext (eq_ok_of_toOption h) rfl

theorem exec_updateReport (f : Report → Report) (p : Progress)
    : (updateReport f).exec p = (.ok (), { p with report := f p.report }) := by rfl

theorem exec_log (level : Int) (message : Text) (p : Progress)
    : (log level message).exec p
        =
      (.ok (), { p with log := p.log ++ [{ level, source, message }] }) := by rfl

theorem exec_drawId (ids : Nat → Text) (p : Progress)
    : (drawId ids).exec p = (.ok (ids p.idsDrawn), { p with idsDrawn := p.idsDrawn + 1 }) := by rfl

namespace Run

def Moves (R : Progress → Progress → Prop) (r : Run α) : Prop :=
  ∀ p, R p (r.exec p).2

section Moves

variable {R : Progress → Progress → Prop}

theorem Moves.of_exec {r : Run α} (h : r.Moves R) {outcome : Except Failure α} {p q : Progress}
    (hexec : r.exec p = (outcome, q)) : R p q := by
  have := h p
  rw [hexec] at this
  exact this

theorem Moves.bind (trans : ∀ p q s, R p q → R q s → R p s) {r : Run α} {f : α → Run β}
    (hr : r.Moves R) (hf : ∀ a, (f a).Moves R) : (r >>= f).Moves R := by
  intro p
  have hp := hr p
  rw [exec_bind]
  cases h : r.exec p with
  | mk outcome q =>
    rw [h] at hp
    cases outcome with
    | error e => exact hp
    | ok a => exact trans _ _ _ hp (hf a q)

theorem Moves.rest (refl : ∀ p, R p p) {r : Run α} {f : α → Run β} (hf : ∀ a, (f a).Moves R)
    (p : Progress) : R (r.exec p).2 ((r >>= f).exec p).2 := by
  rw [exec_bind]
  cases r.exec p with
  | mk outcome q =>
    cases outcome with
    | error e => exact refl q
    | ok a => exact hf a q

end Moves

inductive Answers (I : Progress → Progress → Prop) (F : Failure → Option Failure → Prop)
    (V : α → β → Prop) : Except Failure α × Progress → Except Failure β × Progress → Prop
  | ok {a : α} {b : β} {p q : Progress} : V a b → I p q → Answers I F V (.ok a, p) (.ok b, q)
  | error {e e' : Failure} {p q : Progress} :
    F e (some e') → Answers I F V (.error e, p) (.error e', q)
  | ended {e : Failure} {b : β} {p q : Progress} : F e none → Answers I F V (.error e, p) (.ok b, q)

theorem Answers.of_error {I : Progress → Progress → Prop} {F : Failure → Option Failure → Prop}
    {V : α → β → Prop} {e : Failure} {p : Progress} (h : ∀ inner, F e inner)
    (other : Except Failure β × Progress) : Answers I F V (.error e, p) other := by
  obtain ⟨outcome, q⟩ := other
  cases outcome with
  | error e' => exact .error (h _)
  | ok b => exact .ended (h none)

theorem Answers.eq_ok {I : Progress → Progress → Prop} {F : Failure → Option Failure → Prop}
    {x y : Except Failure α × Progress} {a : α} (h : Answers I F Eq x y) (hx : x.1 = .ok a)
    : y.1 = .ok a := by
  cases h with
  | ok hsame _ =>
    rw [← hsame]
    exact hx
  | error _ => simp at hx
  | ended _ => simp at hx

def Follows (I : Progress → Progress → Prop) (F : Failure → Option Failure → Prop) (V : α → β → Prop)
    (r : Run α) (s : Run β) : Prop :=
  ∀ p q, I p q → Answers I F V (r.exec p) (s.exec q)

section Follows

variable {I : Progress → Progress → Prop} {F : Failure → Option Failure → Prop}

theorem Follows.pure {V : α → β → Prop} {a : α} {b : β} (h : V a b)
    : Follows I F V (Pure.pure a) (Pure.pure b) := by
  intro p q hpq
  exact .ok h hpq

-- Where the first step has failed and the second one has not, the second run may still fail.
theorem Follows.bind (hF : ∀ e e', F e none → F e (some e')) {V : α → β → Prop} {W : γ → δ → Prop}
    {r : Run α} {s : Run β} {f : α → Run γ} {g : β → Run δ} (h : Follows I F V r s)
    (hnext : ∀ a b, V a b → Follows I F W (f a) (g b)) : Follows I F W (r >>= f) (s >>= g) := by
  intro p q hpq
  have hrs := h p q hpq
  rw [exec_bind, exec_bind]
  cases hr : r.exec p with
  | mk x p' =>
    cases hs : s.exec q with
    | mk y q' =>
      rw [hr, hs] at hrs
      cases hrs with
      | ok hab hpq' => exact hnext _ _ hab p' q' hpq'
      | error he => exact .error he
      | ended he =>
        dsimp only
        cases (g _).exec q' with
        | mk z q'' =>
          cases z with
          | error e' => exact .error (hF _ e' he)
          | ok b => exact .ended he

theorem Follows.mapM (hF : ∀ e e', F e none → F e (some e')) {V : α → β → Prop} {ι κ : Type}
    {l : List ι} {l' : List κ} {f : ι → Run α} {g : κ → Run β}
    (h : List.Forall₂ (fun i j => Follows I F V (f i) (g j)) l l')
    : Follows I F (List.Forall₂ V) (l.mapM f) (l'.mapM g) := by
  induction h with
  | nil => exact Follows.pure .nil
  | cons hij _ ih =>
    rw [List.mapM_cons, List.mapM_cons]
    apply Follows.bind hF hij
    intro a b hab
    apply Follows.bind hF ih
    intro as bs habs
    exact Follows.pure (.cons hab habs)

end Follows

def Agree (V : α → β → Prop) : Except Failure α → Except Failure β → Prop
  | .ok a, .ok b => V a b
  | .error e, .error e' => e = e'
  | _, _ => False

/-- From progress that `I` relates both steps agree, and `I` relates what they leave behind. -/
def Alike (I : Progress → Progress → Prop) (V : α → β → Prop) (r : Run α) (s : Run β) : Prop :=
  ∀ p q, I p q → Agree V (r.exec p).1 (s.exec q).1 ∧ I (r.exec p).2 (s.exec q).2

section Alike

variable {I : Progress → Progress → Prop}

theorem Agree.exists_ok {V : α → β → Prop} {a : α} {x : Except Failure β} (h : Agree V (.ok a) x)
    : ∃ b, x = .ok b ∧ V a b := by
  cases x with
  | ok b => exact ⟨b, rfl, h⟩
  | error e => exact h.elim

theorem Alike.follows {F : Failure → Option Failure → Prop} {r s : Run α} (h : Alike I Eq r s)
    (hF : ∀ p e, (r.exec p).1 = .error e → F e (some e)) : Follows I F Eq r s := by
  intro p q hpq
  obtain ⟨hsame, hmoves⟩ := h p q hpq
  have hF := hF p
  cases hr : r.exec p with
  | mk x p' =>
    cases hs : s.exec q with
    | mk y q' =>
      rw [hr, hs] at hsame hmoves
      rw [hr] at hF
      cases x <;> cases y
      . obtain rfl : _ = _ := hsame
        exact .error (hF _ rfl)
      . exact hsame.elim
      . exact hsame.elim
      . exact .ok hsame hmoves

theorem Agree.eq {x y : Except Failure α} (h : Agree Eq x y) : x = y := by
  cases x <;> cases y
  all_goals simp_all [Agree]

theorem Alike.pure {V : α → β → Prop} {a : α} {b : β} (h : V a b)
    : Alike I V (Pure.pure a) (Pure.pure b) := by
  intro p q hpq
  exact ⟨h, hpq⟩

theorem Alike.bind {V : α → β → Prop} {W : γ → δ → Prop} {r : Run α} {s : Run β} {f : α → Run γ}
    {g : β → Run δ} (h : Alike I V r s) (hnext : ∀ a b, V a b → Alike I W (f a) (g b))
    : Alike I W (r >>= f) (s >>= g) := by
  intro p q hpq
  have hrs := h p q hpq
  rw [exec_bind, exec_bind]
  cases hr : r.exec p with
  | mk x p' =>
    cases hs : s.exec q with
    | mk y q' =>
      rw [hr, hs] at hrs
      cases x <;> cases y
      . exact hrs
      . exact hrs.1.elim
      . exact hrs.1.elim
      . exact hnext _ _ hrs.1 p' q' hrs.2

theorem Alike.mapM {V : α → β → Prop} {l : List ι} {f : ι → Run α} {g : ι → Run β}
    (h : ∀ i ∈ l, Alike I V (f i) (g i)) : Alike I (List.Forall₂ V) (l.mapM f) (l.mapM g) := by
  induction l with
  | nil => exact Alike.pure .nil
  | cons i l ih =>
    rw [List.mapM_cons, List.mapM_cons]
    apply Alike.bind (h i (by simp))
    intro a b hab
    apply Alike.bind (ih fun j hj => h j (by simp [hj]))
    intro as bs habs
    exact Alike.pure (.cons hab habs)

end Alike

end Run
end Expansion
end Transclusion
