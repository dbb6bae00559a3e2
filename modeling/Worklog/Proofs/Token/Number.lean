import Worklog.Proofs.Token.Lexing

/-!
# The numbers of a text

A number among the tokens of a text is written in decimal digits of any script, with at most one
point, which follows a digit (`numeric_of_mem_tokenize`). Signs, exponents and underscores are never
part of it.
-/

namespace Worklog.Token

open Text (isDigit)

/-- Digits, or digits with a point and more of them behind it. -/
inductive Numeric : List Char → Prop
  | whole {ds : List Char} (some_digit : ds ≠ []) (digits : ∀ c ∈ ds, isDigit c = true) : Numeric ds
  | point {ws fs : List Char} (some_digit : ws ≠ []) (whole : ∀ c ∈ ws, isDigit c = true)
      (fraction : ∀ c ∈ fs, isDigit c = true) : Numeric (ws ++ '.' :: fs)

theorem take_fractionLength (cs : List Char) : cs.take (fractionLength cs) = [] ∨
    ∃ fs, (∀ c ∈ fs, isDigit c = true) ∧ cs.take (fractionLength cs) = '.' :: fs := by
  unfold fractionLength
  split
  · rename_i d rest
    split
    · rename_i hd
      refine .inr ⟨d :: rest.takeWhile isDigit, ?_, ?_⟩
      · rw [List.forall_mem_cons]
        exact ⟨hd, forall_mem_takeWhile isDigit rest⟩
      · rw [Nat.add_comm, List.take_succ_cons, List.take_succ_cons, take_runLength]
    · exact .inl rfl
  · exact .inl rfl

theorem numeric_extent {c : Char} {rest : List Char} (h : (extent c rest).1 = .number) :
    Numeric (c :: rest.take (extent c rest).2) := by
  revert h
  fun_cases extent c rest with
  | case5 _ _ _ hc whole =>
    intro _
    have taken : ∀ d ∈ c :: rest.takeWhile isDigit, isDigit d = true := by
      rw [List.forall_mem_cons]
      exact ⟨hc, forall_mem_takeWhile isDigit rest⟩
    have split : rest.take (whole + fractionLength (rest.drop whole)) =
        rest.takeWhile isDigit ++ (rest.drop whole).take (fractionLength (rest.drop whole)) := by
      rw [List.take_add, take_runLength]
    rw [split, ← List.cons_append]
    rcases take_fractionLength (rest.drop whole) with hf | ⟨fs, hfs, hf⟩
    · rw [hf, List.append_nil]
      exact .whole (List.cons_ne_nil _ _) taken
    · rw [hf]
      exact .point (List.cons_ne_nil _ _) taken hfs
  | _ =>
    intro h
    cases h

theorem numeric_of_mem_pieces {cs : List Char} :
    ∀ p ∈ pieces cs, p.shape = .number → Numeric p.text := by
  fun_induction pieces cs with
  | case1 => simp
  | case2 c rest ih =>
    rw [List.forall_mem_cons]
    exact ⟨numeric_extent, ih⟩

theorem number_of_piece {p : Piece} {digits : String} (h : p.content? = some (.number digits)) :
    p.shape = .number ∧ digits = String.ofList p.text := by
  unfold Piece.content? at h
  split at h
  case h_5 hs =>
    cases h
    exact ⟨hs, rfl⟩
  case h_8 =>
    unfold wordContent at h
    split at h <;> cases h
  all_goals cases h

/-- The numbers of a text are written in digits, with a point or without. -/
theorem numeric_of_mem_tokenize {keepComments : Bool} {s : String} {t : Token}
    (ht : t ∈ tokenize keepComments s) {digits : String} (h : t.content = .number digits) :
    Numeric digits.toList := by
  obtain ⟨p, hp, hc⟩ := exists_piece_of_mem_tokenize ht (by simp [h])
  obtain ⟨hs, rfl⟩ := number_of_piece (h ▸ hc)
  rw [String.toList_ofList]
  exact numeric_of_mem_pieces p hp hs

end Worklog.Token
