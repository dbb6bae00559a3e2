import Mathlib.Data.List.Basic
import Worklog.Token.Lexer

/-!
# The positions of tokens

Tokens of a text stand one after the other (`pairwise_before_tokenize`): every piece of a text has
some characters, and after them comes a later position. So a token of a text is known by its
position, and so is the way in which it divides the tokens (`eq_of_append_cons`).
-/

namespace Worklog

namespace Position

/-- The first position is before the second one. -/
def Before (p q : Position) : Prop :=
  p.line < q.line ∨ p.line = q.line ∧ p.column < q.column

theorem Before.trans {p q r : Position} (hp : p.Before q) (hq : q.Before r) : p.Before r := by
  unfold Before at *
  omega

theorem Before.ne {p q : Position} (h : p.Before q) : p ≠ q := by
  rintro rfl
  unfold Before at h
  omega

theorem before_next (p : Position) (c : Char) : p.Before (p.next c) := by
  unfold next
  split
  · exact .inl (Nat.lt_succ_self _)
  · exact .inr ⟨rfl, Nat.lt_succ_self _⟩

theorem before_after {cs : List Char} (h : cs ≠ []) (p : Position) : p.Before (p.after cs) := by
  induction cs generalizing p with
  | nil => exact absurd rfl h
  | cons c cs ih =>
    by_cases hc : cs = []
    · subst hc
      exact before_next p c
    · exact (before_next p c).trans (ih hc (p.next c))

end Position

namespace Token

theorem text_ne_nil_of_mem_pieces {cs : List Char} : ∀ p ∈ pieces cs, p.text ≠ [] := by
  fun_induction pieces cs with
  | case1 => simp
  | case2 c rest ih =>
    rw [List.forall_mem_cons]
    exact ⟨List.cons_ne_nil _ _, ih⟩

/-- No token is placed before the position at which the pieces begin. -/
theorem position_of_mem_place {ps : List Piece} (h : ∀ p ∈ ps, p.text ≠ [])
    (position : Position) :
    ∀ t ∈ place position ps, t.position = position ∨ position.Before t.position := by
  induction ps generalizing position with
  | nil => simp [place]
  | cons p ps ih =>
    rw [List.forall_mem_cons] at h
    have later : ∀ t ∈ place (position.after p.text) ps, position.Before t.position := by
      intro t ht
      have step := Position.before_after h.1 position
      rcases ih h.2 _ t ht with heq | hlt
      · exact heq ▸ step
      · exact step.trans hlt
    unfold place
    split
    · rw [List.forall_mem_cons]
      exact ⟨.inl rfl, fun t ht => .inr (later t ht)⟩
    · exact fun t ht => .inr (later t ht)

theorem pairwise_before_place {ps : List Piece} (h : ∀ p ∈ ps, p.text ≠ [])
    (position : Position) :
    (place position ps).Pairwise fun t u => t.position.Before u.position := by
  induction ps generalizing position with
  | nil => simp [place]
  | cons p ps ih =>
    rw [List.forall_mem_cons] at h
    unfold place
    split
    · refine List.pairwise_cons.2 ⟨fun t ht => ?_, ih h.2 _⟩
      have step := Position.before_after h.1 position
      rcases position_of_mem_place h.2 _ t ht with heq | hlt
      · exact heq ▸ step
      · exact step.trans hlt
    · exact ih h.2 _

/-- The tokens of a text stand one after the other. -/
theorem pairwise_before_tokenize (keepComments : Bool) (s : String) :
    (tokenize keepComments s).Pairwise fun t u => t.position.Before u.position :=
  (pairwise_before_place text_ne_nil_of_mem_pieces .start).filter _

/-- The position of a token tells where it divides the tokens of a text. -/
theorem eq_of_append_cons {keepComments : Bool} {s : String}
    {before before' after after' : List Token} {t t' : Token}
    (h : tokenize keepComments s = before ++ t :: after)
    (h' : tokenize keepComments s = before' ++ t' :: after') (hp : t.position = t'.position) :
    before = before' ∧ t = t' ∧ after = after' := by
  have sorted := pairwise_before_tokenize keepComments s
  rw [h, List.pairwise_append, List.pairwise_cons] at sorted
  obtain ⟨-, ⟨later, -⟩, earlier⟩ := sorted
  refine (List.append_cons_inj_of_notMem ?_ ?_).1 (h.symm.trans h')
  · intro mem
    exact (earlier t' mem t (List.mem_cons_self ..)).ne hp.symm
  · intro mem
    exact (later t' mem).ne hp

end Token

end Worklog
