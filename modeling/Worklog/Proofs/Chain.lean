/-!
# Chains of steps that may fail

What is known of the steps of a chain that gave a result: of two steps (`exists_of_bind_ok`), of a
step for each element of a list (`mapM_ok`), and of steps that go on from each other, for which an
invariant of what has been seen is carried along (`foldlM_ok`). If the invariant lets each step give
a result, there is one at the end (`exists_foldlM_ok`).

A chain that failed did so at one of its steps (`error_or_of_bind_error`), so what is known of the
errors of all steps is known of the error of the chain (`FailsOnly`). And if each step gives the
result of another one with its errors changed, so does the chain (`mapM_map_mapError`,
`foldlM_map_mapError`).
-/

namespace Worklog

variable {ε α β : Type}

theorem exists_of_bind_ok {x : Except ε α} {f : α → Except ε β} {b : β}
    (h : (x >>= f) = .ok b) : ∃ a, x = .ok a ∧ f a = .ok b := by
  cases x with
  | error e => cases h
  | ok a => exact ⟨a, rfl, h⟩

theorem error_or_of_bind_error {x : Except ε α} {f : α → Except ε β} {e : ε}
    (h : (x >>= f) = .error e) : x = .error e ∨ ∃ a, x = .ok a ∧ f a = .error e := by
  cases x with
  | error e' =>
    cases h
    exact .inl rfl
  | ok a => exact .inr ⟨a, rfl, h⟩

theorem ok_of_toOption {x : Except ε α} {a : α} (h : x.toOption = some a) :
    x = .ok a := by
  cases x with
  | error e => cases h
  | ok b => cases h; rfl

/-- Steps of which each gives a result give all of their results together. -/
theorem mapM_ok {f : α → Except ε β} {g : α → β} {as : List α} (h : ∀ a ∈ as, f a = .ok (g a)) :
    as.mapM f = .ok (as.map g) := by
  induction as with
  | nil => rfl
  | cons a as ih =>
    rw [List.forall_mem_cons] at h
    rw [List.mapM_cons, h.1, ih h.2]
    rfl

theorem mapM_append_eq_ok {f : α → Except ε β} {as bs : List α} {cs : List β} :
    (as ++ bs).mapM f = .ok cs ↔
      ∃ xs ys, as.mapM f = .ok xs ∧ bs.mapM f = .ok ys ∧ xs ++ ys = cs := by
  rw [List.mapM_append]
  constructor
  · intro h
    obtain ⟨xs, hx, h⟩ := exists_of_bind_ok h
    obtain ⟨ys, hy, h⟩ := exists_of_bind_ok h
    exact ⟨xs, ys, hx, hy, Except.ok.inj h⟩
  · rintro ⟨xs, ys, hx, hy, rfl⟩
    rw [hx, hy]
    rfl

/-- What holds at the start and is kept by each step holds at the end, of all that was seen. -/
theorem foldlM_ok (holds : List α → β → Prop) {f : β → α → Except ε β} {as : List α} {b c : β}
    (start : holds [] b) (step : ∀ seen b a c, a ∈ as → holds seen b → f b a = .ok c →
      holds (seen ++ [a]) c) (h : as.foldlM f b = .ok c) : holds as c := by
  have run : ∀ rest seen b, rest ⊆ as → holds seen b → rest.foldlM f b = .ok c →
      holds (seen ++ rest) c := by
    intro rest
    induction rest with
    | nil =>
      intro seen b _ hb h
      cases h
      rw [List.append_nil]
      exact hb
    | cons a rest ih =>
      intro seen b hsub hb h
      rw [List.foldlM_cons] at h
      obtain ⟨d, hd, h⟩ := exists_of_bind_ok h
      have next := step seen b a d (hsub (List.mem_cons_self ..)) hb hd
      have := ih (seen ++ [a]) d (fun x hx => hsub (List.mem_cons_of_mem a hx)) next h
      rwa [List.append_assoc] at this
  exact run as [] b (List.Subset.refl _) start h

/-- Steps of which each gives a result where the invariant holds give one together. -/
theorem exists_foldlM_ok (holds : List α → β → Prop) {f : β → α → Except ε β} {as : List α} {b : β}
    (start : holds [] b) (step : ∀ seen b a, a ∈ as → holds seen b →
      ∃ c, f b a = .ok c ∧ holds (seen ++ [a]) c) : ∃ c, as.foldlM f b = .ok c ∧ holds as c := by
  -- The induction is on the steps to come; those that were taken stay in the invariant.
  have run : ∀ rest seen b, rest ⊆ as → holds seen b →
      ∃ c, rest.foldlM f b = .ok c ∧ holds (seen ++ rest) c := by
    intro rest
    induction rest with
    | nil =>
      intro seen b _ hb
      rw [List.append_nil]
      exact ⟨b, rfl, hb⟩
    | cons a rest ih =>
      intro seen b hsub hb
      obtain ⟨d, hd, next⟩ := step seen b a (hsub (List.mem_cons_self ..)) hb
      obtain ⟨c, hc, hold⟩ := ih (seen ++ [a]) d (fun x hx => hsub (List.mem_cons_of_mem a hx)) next
      refine ⟨c, ?_, ?_⟩
      · rw [List.foldlM_cons, hd]
        exact hc
      · rwa [List.append_assoc] at hold
  exact run as [] b (List.Subset.refl _) start

/-! ## The errors of a chain -/

/-- The step gives a result or an error of the class. -/
def FailsOnly (P : ε → Prop) (x : Except ε α) : Prop :=
  ∀ e, x = .error e → P e

namespace FailsOnly

variable {P : ε → Prop}

theorem ok (a : α) : FailsOnly P (.ok a) := by
  intro e h
  cases h

theorem error {e : ε} (h : P e) : FailsOnly P (.error e : Except ε α) := by
  intro e' h'
  cases h'
  exact h

theorem bind {x : Except ε α} {f : α → Except ε β} (hx : FailsOnly P x)
    (hf : ∀ a, x = .ok a → FailsOnly P (f a)) : FailsOnly P (x >>= f) := by
  intro e h
  rcases error_or_of_bind_error h with h | ⟨a, ha, h⟩
  · exact hx e h
  · exact hf a ha e h

theorem mapM {f : α → Except ε β} {as : List α} (h : ∀ a ∈ as, FailsOnly P (f a)) :
    FailsOnly P (as.mapM f) := by
  induction as with
  | nil => exact .ok []
  | cons a as ih =>
    rw [List.forall_mem_cons] at h
    rw [List.mapM_cons]
    exact h.1.bind fun b _ => (ih h.2).bind fun bs _ => .ok (b :: bs)

theorem foldlM {f : β → α → Except ε β} {as : List α} (h : ∀ b, ∀ a ∈ as, FailsOnly P (f b a))
    (b : β) : FailsOnly P (as.foldlM f b) := by
  induction as generalizing b with
  | nil => exact .ok b
  | cons a as ih =>
    rw [List.foldlM_cons]
    refine (h b a (List.mem_cons_self ..)).bind fun c _ => ih (fun d x hx => ?_) c
    exact h d x (List.mem_cons_of_mem a hx)

end FailsOnly

section MapError

variable {ε' α' : Type} (m : ε → ε')

theorem mapError_bind (x : Except ε α) (f : α → Except ε β) :
    (x >>= f).mapError m = x.mapError m >>= fun a => (f a).mapError m := by
  cases x <;> rfl

variable {m} {g : α → α'}

theorem mapM_map_mapError {f : α → Except ε β} {f' : α' → Except ε' β}
    (h : ∀ a, f' (g a) = (f a).mapError m) (as : List α) :
    (as.map g).mapM f' = (as.mapM f).mapError m := by
  induction as with
  | nil => rfl
  | cons a as ih =>
    rw [List.map_cons, List.mapM_cons, List.mapM_cons, mapError_bind, h, ih]
    cases f a with
    | error e => rfl
    | ok b => cases as.mapM f <;> rfl

theorem foldlM_map_mapError {f : β → α → Except ε β} {f' : β → α' → Except ε' β}
    (h : ∀ b a, f' b (g a) = (f b a).mapError m) (as : List α) (b : β) :
    (as.map g).foldlM f' b = (as.foldlM f b).mapError m := by
  induction as generalizing b with
  | nil => rfl
  | cons a as ih =>
    rw [List.map_cons, List.foldlM_cons, List.foldlM_cons, mapError_bind, h]
    cases f b a with
    | error e => rfl
    | ok c => exact ih c

end MapError

end Worklog
