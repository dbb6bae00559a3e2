import Worklog.Proofs.Clause.Moving
import Worklog.Proofs.Query.Likeness

/-!
# The meaning of clauses that stand elsewhere

What a clause means does not depend on where it stands: with its positions changed it adds the same
to a query, or is refused for the same reason at the changed position (`Query.addClause_moved`).
The parts of a clause are like themselves at the changed positions, so this is a case of how
readings that are alike agree (`eq_mapError_of_agree`).
-/

namespace Worklog

variable {registry : Registry} (f : Position → Position)

/-- The failure with its position changed, if it has one. -/
def Failure.moved : Failure → Failure
  | .query e => .query { e with position := e.position.map f }
  | failure => failure

/-- Positions correspond to the changed ones, and texts are the same. -/
def Likeness.moving : Likeness :=
  ⟨fun p p' => p' = f p, True⟩

variable {f} in
theorem Failure.Like.eq_moved {failure failure' : Failure} (h : failure.Like (.moving f) failure') :
    failure' = failure.moved f := by
  cases h with
  | query like =>
    obtain ⟨rfl, -, cause_eq⟩ := like
    rw [cause_eq trivial]
    rfl
  | other none =>
    cases failure with
    | query e => exact absurd rfl (none e)
    | _ => rfl

variable {f} in
theorem eq_mapError_of_agree {α : Type} {x x' : Except Failure α}
    (h : Agree (Failure.Like (.moving f)) Eq x x') : x' = x.mapError (Failure.moved f) := by
  cases h with
  | ok h => rw [← h]; rfl
  | error like => rw [like.eq_moved]; rfl

theorem Token.like_moved (t : Token) : t.Like (.moving f) (t.moved f) :=
  ⟨rfl, fun _ => rfl, rfl⟩

theorem Literal.like_moved (l : Literal) : l.Like (.moving f) (l.moved f) :=
  ⟨rfl, rfl, rfl⟩

theorem Condition.like_moved (c : Condition) : c.Like (.moving f) (c.moved f) := by
  refine ⟨rfl, ?_, rfl⟩
  unfold Condition.moved Test.map
  cases c.test with
  | compare op l => exact .compare (l.like_moved f)
  | range low high => exact .range (low.like_moved f) (high.like_moved f)

theorem ColumnItem.like_moved (c : ColumnItem) : c.Like (.moving f) (c.moved f) :=
  ⟨rfl, rfl, rfl, rfl⟩

namespace Query

theorem addClause_moved (q : Query) (c : Clause) : q.addClause registry (c.moved f) =
    (q.addClause registry c).mapError (Failure.moved f) := by
  obtain ⟨body, position⟩ := c
  cases body with
  | conditions items =>
    have read (c : Condition) :
        (c.moved f).read registry = (c.read registry).mapError (Failure.moved f) :=
      eq_mapError_of_agree (Condition.agree_read (c.like_moved f))
    simp only [addClause, Clause.moved, Clause.Body.moved, mapError_bind, mapM_map_mapError read]
    rfl
  | columns items =>
    have read (c : ColumnItem) : (c.moved f).read = c.read.mapError (Failure.moved f) :=
      eq_mapError_of_agree (ColumnItem.agree_read (c.like_moved f))
    simp only [addClause, Clause.moved, Clause.Body.moved, mapError_bind, mapM_map_mapError read]
    rfl
  | choice c value => exact eq_mapError_of_agree (agree_choose q c value)
  | unknown name => rfl

end Query

end Worklog
