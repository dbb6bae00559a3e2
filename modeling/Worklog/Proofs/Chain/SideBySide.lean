import Mathlib.Data.List.Forall2
import Worklog.Proofs.Chain

/-!
# Chains side by side

Two steps agree if both give results, which are related, or both fail, with errors that are related
(`Agree`). Agreement is closed under chaining (`Agree.bind`), under a step for each element of two
related lists (`Agree.mapM`) and under steps that go on from each other (`Agree.foldlM`). The
results of a step for each element of a list stand beside the elements (`mapM_eq_ok_iff`), and they
are related to them just if those of each step are (`exists_mapM_iff`).
-/

namespace Worklog

variable {ε ε' η η' α α' β β' : Type}

/-- Both steps give results that are related, or both fail with errors that are related. -/
inductive Agree (E : ε → ε' → Prop) (R : α → α' → Prop) : Except ε α → Except ε' α' → Prop
  | ok {a : α} {a' : α'} (h : R a a') : Agree E R (.ok a) (.ok a')
  | error {e : ε} {e' : ε'} (h : E e e') : Agree E R (.error e) (.error e')

namespace Agree

variable {E : ε → ε' → Prop} {R : α → α' → Prop} {S : β → β' → Prop}

theorem exists_of_ok {a : α} {x : Except ε' α'} (h : Agree E R (.ok a) x) :
    ∃ a', x = .ok a' ∧ R a a' := by
  cases h with
  | ok h => exact ⟨_, rfl, h⟩

theorem exists_of_error {e : ε} {x : Except ε' α'} (h : Agree E R (.error e) x) :
    ∃ e', x = .error e' ∧ E e e' := by
  cases h with
  | error h => exact ⟨_, rfl, h⟩

theorem mapError {F : η → η' → Prop} {x : Except ε α} {x' : Except ε' α'} {m : ε → η}
    {m' : ε' → η'} (h : Agree E R x x') (hm : ∀ e e', E e e' → F (m e) (m' e')) :
    Agree F R (x.mapError m) (x'.mapError m') := by
  cases h with
  | ok h => exact .ok h
  | error h => exact .error (hm _ _ h)

theorem bind {x : Except ε α} {x' : Except ε' α'} {f : α → Except ε β} {f' : α' → Except ε' β'}
    (hx : Agree E R x x') (hf : ∀ a a', R a a' → Agree E S (f a) (f' a')) :
    Agree E S (x >>= f) (x' >>= f') := by
  cases hx with
  | ok h => exact hf _ _ h
  | error h => exact .error h

theorem mapM {f : α → Except ε β} {f' : α' → Except ε' β'} {as : List α} {as' : List α'}
    (h : List.Forall₂ R as as') (hf : ∀ a a', R a a' → Agree E S (f a) (f' a')) :
    Agree E (List.Forall₂ S) (as.mapM f) (as'.mapM f') := by
  induction h with
  | nil => exact .ok .nil
  | cons head tail ih =>
    rw [List.mapM_cons, List.mapM_cons]
    refine (hf _ _ head).bind fun b b' hb => ih.bind fun bs bs' hbs => ?_
    exact .ok (.cons hb hbs)

theorem foldlM {f : β → α → Except ε β} {f' : β' → α' → Except ε' β'} {as : List α}
    {as' : List α'} (h : List.Forall₂ R as as')
    (hf : ∀ b b' a a', S b b' → R a a' → Agree E S (f b a) (f' b' a')) {b : β} {b' : β'}
    (hb : S b b') : Agree E S (as.foldlM f b) (as'.foldlM f' b') := by
  induction h generalizing b b' with
  | nil => exact .ok hb
  | cons head tail ih =>
    rw [List.foldlM_cons, List.foldlM_cons]
    exact (hf _ _ _ _ hb head).bind fun c c' hc => ih hc

end Agree

theorem exists_of_forall₂ {R : α → β → Prop} {as : List α} {bs : List β}
    (h : List.Forall₂ R as bs) : ∀ b ∈ bs, ∃ a ∈ as, R a b := by
  induction h with
  | nil => exact nofun
  | @cons a b as bs head tail ih =>
    rw [List.forall_mem_cons]
    refine ⟨⟨a, List.mem_cons_self .., head⟩, fun c hc => ?_⟩
    obtain ⟨a', ha', related⟩ := ih c hc
    exact ⟨a', List.mem_cons_of_mem a ha', related⟩

theorem forall_mem_iff_of_forall₂ {R : α → β → Prop} {P : α → Prop} {Q : β → Prop} {as : List α}
    {bs : List β} (h : List.Forall₂ R as bs) (hPQ : ∀ a b, R a b → (P a ↔ Q b)) :
    (∀ a ∈ as, P a) ↔ ∀ b ∈ bs, Q b := by
  induction h with
  | nil => exact iff_of_true nofun nofun
  | cons head tail ih =>
    rw [List.forall_mem_cons, List.forall_mem_cons, ih, hPQ _ _ head]

theorem mapM_eq_ok_iff {f : α → Except ε β} {as : List α} {bs : List β} :
    as.mapM f = .ok bs ↔ List.Forall₂ (fun a b => f a = .ok b) as bs := by
  constructor
  · intro h
    induction as generalizing bs with
    | nil =>
      cases h
      exact .nil
    | cons a as ih =>
      rw [List.mapM_cons] at h
      obtain ⟨b, hb, h⟩ := exists_of_bind_ok h
      obtain ⟨cs, hcs, h⟩ := exists_of_bind_ok h
      cases h
      exact .cons hb (ih hcs)
  · intro h
    induction h with
    | nil => rfl
    | cons head tail ih =>
      rw [List.mapM_cons, head, ih]
      rfl

theorem exists_mapM_iff {f : α → Except ε β} {R : α → β → Prop} {as : List α} :
    (∃ bs, as.mapM f = .ok bs ∧ List.Forall₂ R as bs) ↔ ∀ a ∈ as, ∃ b, f a = .ok b ∧ R a b := by
  induction as with
  | nil =>
    refine ⟨fun _ => nofun, fun _ => ⟨[], rfl, .nil⟩⟩
  | cons a as ih =>
    rw [List.forall_mem_cons, ← ih, List.mapM_cons]
    constructor
    · rintro ⟨_, h, related⟩
      obtain ⟨b, hb, h⟩ := exists_of_bind_ok h
      obtain ⟨bs, hbs, h⟩ := exists_of_bind_ok h
      cases h
      cases related with
      | cons head tail => exact ⟨⟨b, hb, head⟩, bs, hbs, tail⟩
    · rintro ⟨⟨b, hb, head⟩, bs, hbs, tail⟩
      rw [hb, hbs]
      exact ⟨b :: bs, rfl, .cons head tail⟩

end Worklog
