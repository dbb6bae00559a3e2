import Worklog.Proofs.Chain
import Worklog.Proofs.Clause.Soundness

/-!
# Errors of the parser

Whatever the tokens are, a reader that refuses them does so with a cause that arises while
parsing: one of the expectations of the grammar or an invalid token, or a field that is not known
(`refusesWell_parseTokens`). The property is closed under chaining (`FailsOnly.bind`), so that each
reader inherits it from those it calls.
-/

namespace Worklog

/-- An error that arises while tokens are read, be it a field that is not known. -/
def QueryError.InParsing (e : QueryError) : Prop :=
  e.cause.stage = .parsing ∨ e.cause.stage = .resolving

namespace Clause

variable {α : Type} {fields : List String} {stop : Position}

/-- The reading gives a result or an error that arises while tokens are read. -/
abbrev RefusesWell (x : Except QueryError α) : Prop :=
  FailsOnly QueryError.InParsing x

/-- The refusal of tokens is in parsing if what it is told to say is. -/
theorem inParsing_refusal {cause : String → Cause} (h : ∀ found, (cause found).stage = .parsing)
    (tokens : List Token) : (refusal stop tokens cause).InParsing := by
  unfold refusal
  split
  · exact .inl (h _)
  · split
    · exact .inl rfl
    · exact .inl (h _)

theorem refusesWell_parseLiteral (after : String) (tokens : List Token) :
    RefusesWell (parseLiteral stop after tokens) := by
  unfold parseLiteral
  split
  · exact .error (inParsing_refusal (fun _ => rfl) _)
  · split
    · exact .ok _
    · exact .ok _
    · exact .error (inParsing_refusal (fun _ => rfl) _)

theorem refusesWell_parseKeyword (k : Keyword) {cause : String → Cause}
    (h : ∀ found, (cause found).stage = .parsing) (tokens : List Token) :
    RefusesWell (parseKeyword stop k cause tokens) := by
  unfold parseKeyword
  split
  · exact .error (inParsing_refusal h _)
  · split
    · exact .ok _
    · exact .error (inParsing_refusal h _)

theorem refusesWell_parseTest (field : String) (tokens : List Token) :
    RefusesWell (parseTest stop field tokens) := by
  unfold parseTest
  split
  · exact .error (inParsing_refusal (fun _ => rfl) _)
  · split
    · exact (refusesWell_parseLiteral _ _).bind fun _ _ => .ok _
    · refine (refusesWell_parseLiteral _ _).bind fun _ _ => ?_
      refine (refusesWell_parseKeyword _ (fun _ => rfl) _).bind fun _ _ => ?_
      exact (refusesWell_parseLiteral _ _).bind fun _ _ => .ok _
    · exact .error (inParsing_refusal (fun _ => rfl) _)

theorem refusesWell_parseCondition (after : Keyword) (tokens : List Token) :
    RefusesWell (parseCondition fields stop after tokens) := by
  unfold parseCondition
  split
  · exact .error (inParsing_refusal (fun _ => rfl) _)
  · split
    · split
      · exact (refusesWell_parseTest _ _).bind fun _ _ => .ok _
      · exact .error (.inr rfl)
    · exact .error (inParsing_refusal (fun _ => rfl) _)

theorem refusesWell_parseFormat (tokens : List Token) :
    RefusesWell (parseFormat stop tokens) := by
  unfold parseFormat
  split
  · exact .ok _
  · split
    · split
      · exact .error (inParsing_refusal (fun _ => rfl) _)
      · split
        · split
          · exact .ok _
          · exact .error (inParsing_refusal (fun _ => rfl) _)
        · exact .error (inParsing_refusal (fun _ => rfl) _)
    · exact .ok _

theorem refusesWell_parseTitle (tokens : List Token) : RefusesWell (parseTitle stop tokens) := by
  unfold parseTitle
  split
  · exact .ok _
  · split
    · split
      · exact .error (inParsing_refusal (fun _ => rfl) _)
      · split
        · exact .ok _
        · exact .error (inParsing_refusal (fun _ => rfl) _)
    · exact .ok _

theorem refusesWell_parseColumn (tokens : List Token) :
    RefusesWell (parseColumn stop tokens) := by
  unfold parseColumn
  split
  · exact .error (inParsing_refusal (fun _ => rfl) _)
  · split
    · refine (refusesWell_parseFormat _).bind fun _ _ => ?_
      exact (refusesWell_parseTitle _).bind fun _ _ => .ok _
    · exact (refusesWell_parseTitle _).bind fun _ _ => .ok _
    · exact .error (inParsing_refusal (fun _ => rfl) _)

theorem refusesWell_parseConditions (after : Keyword) (tokens : List Token) :
    RefusesWell (parseConditions fields stop after tokens) := by
  fun_induction parseConditions fields stop after tokens with
  | case1 after tokens e he => exact .error (refusesWell_parseCondition _ _ e he)
  | case2 => exact .ok _
  | case3 _ _ _ _ _ _ _ ih => exact ih.bind fun _ _ => .ok _
  | case4 => exact .ok _

theorem refusesWell_parseColumns (tokens : List Token) :
    RefusesWell (parseColumns stop tokens) := by
  fun_induction parseColumns stop tokens with
  | case1 tokens e he => exact .error (refusesWell_parseColumn _ e he)
  | case2 => exact .ok _
  | case3 _ _ _ _ _ _ ih => exact ih.bind fun _ _ => .ok _
  | case4 => exact .ok _

theorem refusesWell_parseChoice (c : Choice) (tokens : List Token) :
    RefusesWell (parseChoice stop c tokens) := by
  unfold parseChoice
  split
  · exact .error (.inl rfl)
  · split
    · split
      · exact .ok _
      · split
        · exact .error (.inl rfl)
        · exact .error (inParsing_refusal (fun _ => rfl) _)
    · exact .error (inParsing_refusal (fun _ => rfl) _)

theorem inParsing_conditionsRefusal (tokens : List Token) :
    (conditionsRefusal stop tokens).InParsing := by
  unfold conditionsRefusal
  split
  · split
    · exact .inl rfl
    · exact inParsing_refusal (fun _ => rfl) _
  · exact inParsing_refusal (fun _ => rfl) _

theorem inParsing_clauseRefusal (tokens : List Token) :
    (clauseRefusal stop tokens).InParsing := by
  unfold clauseRefusal
  split
  · split
    · exact inParsing_refusal (fun _ => rfl) _
    · exact inParsing_refusal (fun _ => rfl) _
  · exact inParsing_refusal (fun _ => rfl) _

theorem refusesWell_parseBody (k : Keyword) (tokens : List Token) :
    RefusesWell (parseBody fields stop k tokens) := by
  unfold parseBody
  split
  · refine (refusesWell_parseConditions _ _).bind fun _ _ => ?_
    dsimp only
    split
    · exact .ok _
    · exact .error (inParsing_conditionsRefusal _)
  · refine (refusesWell_parseColumns _).bind fun _ _ => ?_
    dsimp only
    split
    · exact .ok _
    · exact .error (inParsing_refusal (fun _ => rfl) _)
  · exact (refusesWell_parseChoice _ _).bind fun _ _ => .ok _
  all_goals exact .error (inParsing_clauseRefusal _)

theorem refusesWell_parseClauses (tokens : List Token) :
    RefusesWell (parseClauses fields stop tokens) := by
  fun_induction parseClauses fields stop tokens with
  | case1 => exact .ok _
  | case2 t rest k ht hk e he => exact .error (refusesWell_parseBody _ _ e he)
  | case3 _ _ _ _ _ _ _ _ ih => exact ih.bind fun _ _ => .ok _
  | case4 => exact .error (inParsing_clauseRefusal _)
  | case5 => exact .error (inParsing_clauseRefusal _)

/-- Tokens that are refused are refused with a cause that arises while parsing. -/
theorem refusesWell_parseTokens (tokens : List Token) :
    RefusesWell (parseTokens fields tokens) :=
  refusesWell_parseClauses _

end Clause

end Worklog
