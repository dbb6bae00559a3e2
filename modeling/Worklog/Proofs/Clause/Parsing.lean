import Worklog.Proofs.Clause.Completeness
import Worklog.Proofs.Clause.Refusal
import Worklog.Proofs.Clause.Soundness
import Worklog.Proofs.Field.Registry
import Worklog.Proofs.Token.Lexing

/-!
# The parser and its grammar

The parser reads exactly the queries of the grammar. Canonical tokens, which every text without
comments is cut into (`Token.exists_canonical_tokenize`), are read as clauses if and only if they
write them; no tokens write two lists of clauses; and tokens that write none are refused with an
error that arises in parsing (`parseTokens_spec`).
-/

namespace Worklog

/-- The name of an identifier. -/
def Token.name? (t : Token) : Option String :=
  match t.content with
  | .identifier name => some name
  | _ => none

namespace Clause

/-- Two readings of the same tokens agree. -/
theorem AllWritten.unique {known : String → Prop} {cs ds : List Clause} {ts : List Token}
    (hc : AllWritten known cs ts) (hd : AllWritten known ds ts) : cs = ds := by
  -- The parser is a function, and reads both if its fields are the names in the tokens.
  have listed : ∀ t ∈ ts, ∀ name, t.content = .identifier name → known name →
      name ∈ ts.filterMap Token.name? := by
    intro t ht name hn _
    exact List.mem_filterMap.2 ⟨t, ht, by rw [Token.name?, hn]⟩
  have read := parseClauses_of_allWritten .start (hc.imp listed)
  rw [parseClauses_of_allWritten .start (hd.imp listed)] at read
  cases read
  rfl

section Canonical

variable {fields : List String} {body : List Token} {stop : Token}

theorem filter_not_comment (h : Token.Canonical body stop) :
    (body ++ [stop]).filter (fun t => !t.isComment) = body ++ [stop] := by
  rw [List.filter_eq_self, List.forall_mem_append, List.forall_mem_singleton]
  refine ⟨fun t ht => by rw [h.not_comment t ht]; rfl, ?_⟩
  simp [Token.isComment, h.stop_content]

theorem takeWhile_ne_stop (h : Token.Canonical body stop) :
    (body ++ [stop]).takeWhile (fun t => t.content != .stop) = body := by
  rw [List.takeWhile_append_of_pos (fun t ht => by simpa using h.ne_stop t ht),
    List.takeWhile_cons_of_neg (by simp [h.stop_content]), List.append_nil]

theorem parseTokens_canonical (h : Token.Canonical body stop) :
    parseTokens fields (body ++ [stop]) = parseClauses fields (stopOf (body ++ [stop])) body := by
  rw [parseTokens, filter_not_comment h, takeWhile_ne_stop h]

theorem parseTokens_eq_ok_iff (h : Token.Canonical body stop) {clauses : List Clause} :
    parseTokens fields (body ++ [stop]) = .ok clauses ↔
      AllWritten (· ∈ fields) clauses body := by
  rw [parseTokens_canonical h]
  exact ⟨allWritten_of_parseClauses, parseClauses_of_allWritten _⟩

end Canonical

/-- For canonical tokens, the listed fields are those that the registry knows. -/
theorem allWritten_names_iff (r : Registry) {body : List Token} {stop : Token}
    (h : Token.Canonical body stop) {clauses : List Clause} :
    AllWritten (· ∈ r.names) clauses body ↔ AllWritten (r.contains · = true) clauses body := by
  constructor
  · refine AllWritten.imp fun t ht name hn => ?_
    exact (r.mem_names_iff_contains (h.lower_eq t ht name hn)).1
  · refine AllWritten.imp fun t ht name hn => ?_
    exact (r.mem_names_iff_contains (h.lower_eq t ht name hn)).2

/-- The parser reads what the grammar writes, and refuses everything else while parsing. -/
theorem parseTokens_spec (r : Registry) (body : List Token) (stop : Token)
    (h : Token.Canonical body stop) :
    (∀ clauses, parseTokens r.names (body ++ [stop]) = .ok clauses ↔
      (∀ t ∈ body, t.Valid) ∧ AllWritten (r.contains · = true) clauses body) ∧
    (∀ clauses clauses', AllWritten (r.contains · = true) clauses body →
      AllWritten (r.contains · = true) clauses' body → clauses = clauses') ∧
    ((¬ ∃ clauses, (∀ t ∈ body, t.Valid) ∧ AllWritten (r.contains · = true) clauses body) →
      ∃ e, parseTokens r.names (body ++ [stop]) = .error e ∧ e.InParsing) := by
  have reads : ∀ clauses, parseTokens r.names (body ++ [stop]) = .ok clauses ↔
      (∀ t ∈ body, t.Valid) ∧ AllWritten (r.contains · = true) clauses body := by
    intro clauses
    rw [parseTokens_eq_ok_iff h, allWritten_names_iff r h]
    exact ⟨fun hw => ⟨hw.valid, hw⟩, And.right⟩
  refine ⟨reads, fun _ _ => AllWritten.unique, fun none => ?_⟩
  cases hp : parseTokens r.names (body ++ [stop]) with
  | ok clauses => exact absurd ⟨clauses, (reads clauses).1 hp⟩ none
  | error e => exact ⟨e, rfl, refusesWell_parseTokens _ e hp⟩

/-- The specification at the tokens of `WHERE year = 2024`. -/
theorem parseTokens_spec_year :
    let word : Token := ⟨.keyword .conditions, "WHERE", ⟨1, 1⟩⟩
    let field : Token := ⟨.identifier "year", "year", ⟨1, 7⟩⟩
    let sign : Token := ⟨.operator .eq, "=", ⟨1, 12⟩⟩
    let number : Token := ⟨.number "2024", "2024", ⟨1, 14⟩⟩
    let stop : Token := ⟨.stop, "", ⟨1, 18⟩⟩
    Token.Canonical [word, field, sign, number] stop ∧
      parseTokens Registry.standard.names ([word, field, sign, number] ++ [stop]) =
        .ok [⟨.conditions [⟨"year", .compare .eq ⟨.number, "2024", ⟨1, 14⟩⟩, ⟨1, 7⟩⟩],
          ⟨1, 1⟩⟩] := by
  intro word field sign number stop
  have canonical : Token.Canonical [word, field, sign, number] stop := by
    refine ⟨rfl, by decide, by decide, ?_⟩
    intro t ht name hn
    simp only [List.mem_cons, List.not_mem_nil, or_false] at ht
    rcases ht with rfl | rfl | rfl | rfl <;> cases hn
    decide +kernel
  refine ⟨canonical, ((parseTokens_spec .standard _ stop canonical).1 _).2 ⟨?_, ?_⟩⟩
  · intro t ht fault hf
    simp only [List.mem_cons, List.not_mem_nil, or_false] at ht
    rcases ht with rfl | rfl | rfl | rfl <;> cases hf
  · have known : Registry.standard.contains "year" = true := by decide +kernel
    have value := Literal.Written.number (t := number) rfl
    have test := Test.Written.compare (t := sign) rfl value
    exact .cons (.conditions (t := word) rfl (.single (.mk (t := field) rfl known test))) .nil

end Clause

end Worklog
