import Worklog.Proofs.Query.Likeness
import Worklog.Proofs.Token.LetterCase

/-!
# The letter case of a query

A text in another letter case is compiled to the same query, or refused for the same reason at the
same place (`Query.compile_recased`): clauses are read from the contents of tokens, which do not
depend on case. Only the wording of an error may, as it quotes what is written (`Failure.gist`).
-/

namespace Worklog

/-- What an error tells without its wording. -/
structure QueryError.Gist where
  stage : Cause.Stage
  code : String
  position : Option Position
  suggestion : Option String
  deriving DecidableEq

/-- The gist of an error. -/
def QueryError.gist (e : QueryError) : Gist :=
  ⟨e.cause.stage, e.cause.code, e.position, e.cause.suggestion?⟩

/-- The gist of an error, or the failure itself if it is no error of a query. -/
def Failure.gist : Failure → QueryError.Gist ⊕ Failure
  | .query e => .inl e.gist
  | failure => .inr failure

variable {k : Likeness} {α : Type}

theorem QueryError.Like.gist_eq {e e' : QueryError} (h : e.Like k e')
    (same : ∀ p p', k.places p p' → p' = p) : e'.gist = e.gist := by
  obtain ⟨places, gist, -⟩ := h
  obtain rfl := same _ _ places
  rw [QueryError.gist, QueryError.gist, QueryError.located, QueryError.located, gist.stage_eq,
    gist.code_eq, gist.suggestion_eq]

theorem Failure.Like.gist_eq {failure failure' : Failure} (h : failure.Like k failure')
    (same : ∀ p p', k.places p p' → p' = p) : failure'.gist = failure.gist := by
  cases h with
  | query like => exact congrArg Sum.inl (like.gist_eq same)
  | other none => rfl

theorem gist_eq_of_agree {x x' : Except Failure α} (h : Agree (Failure.Like k) Eq x x')
    (same : ∀ p p', k.places p p' → p' = p) :
    x'.mapError Failure.gist = x.mapError Failure.gist := by
  cases h with
  | ok h => rw [h]
  | error like => exact congrArg Except.error (like.gist_eq same)

namespace Query

/--
A text in another letter case has the same tokens at the same positions, and means the same: it is
compiled to the same query, or refused with the same error but for its wording.
-/
theorem compile_recased {s s' : String} (h : Token.Recased s s') :
    List.Forall₂ Token.Respelled (Token.tokenize false s) (Token.tokenize false s') ∧
    ∀ registry, (compile registry s').mapError Failure.gist =
      (compile registry s).mapError Failure.gist := by
  have respelled := Token.respelled_tokenize h
  refine ⟨respelled, fun registry => ?_⟩
  -- Positions are the same, and nothing is known of what is written.
  let k : Likeness := ⟨fun p p' => p' = p, False⟩
  have alike : List.Forall₂ (Token.Like k) (Token.tokenize false s) (Token.tokenize false s') :=
    respelled.imp fun _ _ h => ⟨h.content_eq, nofun, h.position_eq⟩
  exact gist_eq_of_agree (agree_compile registry alike) fun _ _ => id

/-- A misspelled field is told what it may mean, also in capitals. -/
theorem compile_recased_field :
    let s := "View chart WHERE Projct = \"A\" // all"
    let s' := "VIEW Chart where PROJCT = \"A\" // ALL"
    Token.Recased s s' ∧
    List.Forall₂ Token.Respelled (Token.tokenize false s) (Token.tokenize false s') ∧
    ∀ registry, (compile registry s').mapError Failure.gist =
      (compile registry s).mapError Failure.gist := by
  intro s s'
  have recased : Token.Recased s s' := ⟨by decide +kernel, by decide +kernel⟩
  exact ⟨recased, compile_recased recased⟩

end Query

end Worklog
