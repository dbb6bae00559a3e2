import Worklog.Proofs.Query.Moving
import Worklog.Proofs.Token.Layout

/-!
# The layout of a query

A text that is laid out otherwise has the same tokens at other positions, so it is compiled to the
same query, or refused for the same reason at the position of the same token (`compile_relaid`).
-/

namespace Worklog.Query

/--
A text that is laid out otherwise means the same: only the positions of its tokens change, and with
them the position of the error if it is refused.
-/
theorem compile_relaid {s s' : String} (h : Token.Relaid s s') :
    ∃ f : Position → Position,
      Token.tokenize false s' = (Token.tokenize false s).map (Token.moved f) ∧
      ∀ registry, compile registry s' = (compile registry s).mapError (Failure.moved f) := by
  obtain ⟨f, moved⟩ := Token.exists_moved_of_relaid h
  refine ⟨f, moved, fun registry => eq_mapError_of_agree (agree_compile registry ?_)⟩
  rw [moved, List.forall₂_map_right_iff, List.forall₂_same]
  exact fun t _ => t.like_moved f

/--
A number may be written without a gap before the word behind it, comments may hold quotes, and
quotes comments.
-/
theorem compile_relaid_year :
    let s := "WHERE year=2024VIEW\"a // b"
    let s' := "// \"q\nWHERE year = 2024 // it's\nVIEW \"a // b"
    Token.Relaid s s' ∧ ∃ f : Position → Position,
      Token.tokenize false s' = (Token.tokenize false s).map (Token.moved f) ∧
      ∀ registry, compile registry s' = (compile registry s).mapError (Failure.moved f) := by
  intro s s'
  have tokens : (Token.tokenize false s).dropLast =
      [⟨.keyword .conditions, "WHERE", ⟨1, 1⟩⟩, ⟨.identifier "year", "year", ⟨1, 7⟩⟩,
        ⟨.operator .eq, "=", ⟨1, 11⟩⟩, ⟨.number "2024", "2024", ⟨1, 12⟩⟩,
        ⟨.keyword (.choice .view), "VIEW", ⟨1, 16⟩⟩,
        ⟨.invalid (.openQuote '"'), "\"a // b", ⟨1, 20⟩⟩] := by
    decide +kernel
  have space : Token.Gap [' '] := .mk (by decide) .nil
  have lead : Token.Filler ('/' :: '/' :: (" \"q".toList ++ ['\n'])) := .comment (by decide) .nil
  have comment : Token.Gap (' ' :: '/' :: '/' :: (" it's".toList ++ ['\n'])) :=
    .mk (by decide) (.comment (by decide) .nil)
  have relaid : Token.Relaid s s' := by
    refine ⟨_, ?rest, lead, ?laid, ?text⟩
    case laid =>
      rw [tokens]
      exact .cons (by simp) space (.cons (by simp) space (.cons (by simp) space
        (.cons (by simp) comment (.cons (by simp) space (.last _)))))
    case text => decide +kernel
  exact ⟨relaid, compile_relaid relaid⟩

end Worklog.Query
