/-!
# Texts that end by themselves

A way to write values is prefix-free if whatever follows a written value, the value and the rest
can be told (`PrefixFree`). Values that end with a mark they do not contain are written so
(`PrefixFree.ended`), and so are lists of values of which none begins with the mark after the last
(`PrefixFree.listed`) and values that may be absent (`PrefixFree.optional`).
-/

namespace Worklog.Text

variable {α β : Type}

/-- A written value and what follows it can be told apart. -/
def PrefixFree (w : α → List Char) : Prop :=
  ∀ ⦃a b x y⦄, w a ++ x = w b ++ y → a = b ∧ x = y

namespace PrefixFree

variable {w : α → List Char}

/-- It is enough that no written value is the start of another one. -/
theorem of_prefix_imp_eq (h : ∀ a b, w a <+: w b → a = b) : PrefixFree w := by
  intro a b x y hab
  have same : a = b := by
    rcases List.prefix_or_prefix_of_prefix (List.prefix_append (w a) x)
      (hab ▸ List.prefix_append (w b) y) with hp | hp
    · exact h a b hp
    · exact (h b a hp).symm
  subst same
  exact ⟨rfl, List.append_cancel_left hab⟩

theorem takeWhile_ne_of_notMem {mark : Char} {cs : List Char} (h : mark ∉ cs) (rest : List Char) :
    (cs ++ mark :: rest).takeWhile (· != mark) = cs := by
  have other : ∀ c ∈ cs, (c != mark) = true := by
    intro c hc
    rw [bne_iff_ne]
    rintro rfl
    exact h hc
  rw [List.takeWhile_append_of_pos other, List.takeWhile_cons_of_neg (by simp), List.append_nil]

/-- Values that do not contain the mark after them. -/
theorem ended (inj : Function.Injective w) {mark : Char} (h : ∀ a, mark ∉ w a) :
    PrefixFree fun a => w a ++ [mark] := by
  intro a b x y hab
  simp only [List.append_assoc, List.singleton_append] at hab
  have body : w a = w b := by
    rw [← takeWhile_ne_of_notMem (h a) x, hab, takeWhile_ne_of_notMem (h b) y]
  rw [body] at hab
  have tail := List.append_cancel_left hab
  exact ⟨inj body, (List.cons.inj tail).2⟩

/-- Values one after the other, none of which begins with the mark after the last. -/
theorem listed (h : PrefixFree w) {mark : Char} (hm : ∀ a, ∃ c cs, w a = c :: cs ∧ c ≠ mark) :
    PrefixFree fun as : List α => as.flatMap w ++ [mark] := by
  intro as
  induction as with
  | nil =>
    intro bs x y hab
    cases bs with
    | nil => exact ⟨rfl, (List.cons.inj hab).2⟩
    | cons b bs =>
      obtain ⟨c, cs, hc, hne⟩ := hm b
      simp only [List.flatMap_nil, List.flatMap_cons, hc, List.nil_append, List.cons_append,
        List.cons.injEq] at hab
      exact absurd hab.1.symm hne
  | cons a as ih =>
    intro bs x y hab
    cases bs with
    | nil =>
      obtain ⟨c, cs, hc, hne⟩ := hm a
      simp only [List.flatMap_nil, List.flatMap_cons, hc, List.nil_append, List.cons_append,
        List.cons.injEq] at hab
      exact absurd hab.1 hne
    | cons b bs =>
      simp only [List.flatMap_cons, List.append_assoc] at hab
      obtain ⟨rfl, rest⟩ := h hab
      simp only [← List.append_assoc] at rest
      obtain ⟨rfl, hx⟩ := ih rest
      exact ⟨rfl, hx⟩

/-- Values that may be absent, if none begins as absence does. -/
theorem optional (h : PrefixFree w) {c : Char} {cs : List Char}
    (hw : ∀ a, ∃ d ds, w a = d :: ds ∧ d ≠ c) :
    PrefixFree fun o : Option α => o.elim (c :: cs) w := by
  intro a b x y hab
  cases a with
  | none =>
    cases b with
    | none => exact ⟨rfl, List.append_cancel_left hab⟩
    | some b =>
      obtain ⟨d, ds, hd, hne⟩ := hw b
      simp only [Option.elim_none, Option.elim_some, hd, List.cons_append, List.cons.injEq] at hab
      exact absurd hab.1.symm hne
  | some a =>
    cases b with
    | none =>
      obtain ⟨d, ds, hd, hne⟩ := hw a
      simp only [Option.elim_none, Option.elim_some, hd, List.cons_append, List.cons.injEq] at hab
      exact absurd hab.1 hne
    | some b =>
      obtain ⟨rfl, hx⟩ := h hab
      exact ⟨rfl, hx⟩

end PrefixFree

end Worklog.Text
