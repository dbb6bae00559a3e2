import Worklog.Proofs.Clause.FirstFault
import Worklog.Proofs.Clause.Parsing
import Worklog.Proofs.Token.Position
import Worklog.Query.Interpretation

/-!
# Where the error of a text points

A text that is not parsed is refused because of one of its tokens, which its error points at
(`parse_blames`). What stands before the token can be completed to a query; with the token, nothing
can, and every text whose tokens agree so far has the same error.
-/

namespace Worklog

namespace Clause

variable {fields : List String} {before : List Token}

/-! ## Tokens that begin as others do -/

/-- A token that is read: neither a comment nor the end. -/
def Reads (t : Token) : Prop :=
  t.content ≠ .stop ∧ t.isComment = false

theorem reads_of_isPart {t : Token} (h : t.content.isPart = true) : Reads t := by
  constructor
  · intro hs
    rw [hs] at h
    cases h
  · unfold Token.isComment
    split
    · rename_i hc
      rw [hc] at h
      cases h
    · rfl

theorem filter_append_of_reads (hb : ∀ u ∈ before, Reads u) (rest : List Token) :
    (before ++ rest).filter (fun t => !t.isComment) =
      before ++ rest.filter fun t => !t.isComment := by
  rw [List.filter_append, List.filter_eq_self.2]
  intro u hu
  rw [(hb u hu).2]
  rfl

/-- Before the end, nothing changes when other tokens follow it. -/
theorem parseTokens_stop (hb : ∀ u ∈ before, Reads u) {t : Token} (ht : t.content = .stop)
    (rest : List Token) :
    parseTokens fields (before ++ t :: rest) = parseClauses fields t.position before := by
  have hc : t.isComment = false := by rw [Token.isComment, ht]
  have stays : ∀ u ∈ before, (u.content != .stop) = true := fun u hu => by
    simpa using (hb u hu).1
  have none : before.find? (fun u => u.content == .stop) = none := by
    rw [List.find?_eq_none]
    intro u hu
    simpa using (hb u hu).1
  rw [parseTokens, filter_append_of_reads hb, List.filter_cons_of_pos (by simp [hc]), stopOf,
    List.find?_append, none, List.takeWhile_append_of_pos stays]
  simp [ht]

variable (fields) in
/-- What follows a token does not keep it from being read. -/
theorem exists_parseTokens_cons (hb : ∀ u ∈ before, Reads u) {t : Token} (ht : Reads t)
    (rest : List Token) : ∃ stop rest',
      parseTokens fields (before ++ t :: rest) =
        parseClauses fields stop (before ++ t :: rest') := by
  have stays : ∀ u ∈ before, (u.content != .stop) = true := fun u hu => by
    simpa using (hb u hu).1
  rw [parseTokens, filter_append_of_reads hb, List.filter_cons_of_pos (by simp [ht.2]),
    List.takeWhile_append_of_pos stays, List.takeWhile_cons_of_pos (by simpa using ht.1)]
  exact ⟨_, _, rfl⟩

/-! ## The token at fault -/

/-- Some tokens complete these to a query. -/
def Completable (fields : List String) (before : List Token) : Prop :=
  ∃ more stop clauses, stop.content = .stop ∧ (∀ u ∈ before ++ more, u.content.isPart = true) ∧
    parseTokens fields (before ++ more ++ [stop]) = .ok clauses

theorem completable_of_begins (h : Begins (AllWritten (· ∈ fields)) before) :
    Completable fields before := by
  obtain ⟨clauses, more, hw⟩ := h
  refine ⟨more, sample .stop, clauses, rfl, hw.isPart, ?_⟩
  rw [parseTokens_stop (fun u hu => reads_of_isPart (hw.isPart u hu)) rfl]
  exact parseClauses_of_allWritten _ hw

/-- Tokens that are refused are refused because of one of them, whatever follows it. -/
theorem exists_fault (hf : fields ≠ []) {body : List Token} {stop : Token}
    (h : Token.Canonical body stop) {e : QueryError}
    (he : parseTokens fields (body ++ [stop]) = .error e) :
    ∃ before t after, body ++ [stop] = before ++ t :: after ∧ e.position = some t.position ∧
      Completable fields before ∧ ∀ rest, parseTokens fields (before ++ t :: rest) = .error e := by
  have reads : ∀ u ∈ body, Reads u := fun u hu => ⟨h.ne_stop u hu, h.not_comment u hu⟩
  rw [parseTokens_stop reads h.stop_content] at he
  obtain ⟨before, rest, rfl, hb, blames⟩ := blamesFirst_parseClauses hf he
  have hr := List.forall_mem_append.1 reads
  cases rest with
  | nil =>
    refine ⟨before, stop, [], by simp, blames.position_eq, completable_of_begins hb, ?_⟩
    intro rest
    rw [parseTokens_stop hr.1 h.stop_content]
    simpa using blames.refuses stop.position [] rfl fun _ => rfl
  | cons t after =>
    refine ⟨before, t, after ++ [stop], by simp, blames.position_eq,
      completable_of_begins hb, ?_⟩
    intro rest
    obtain ⟨stop', rest', same⟩ :=
      exists_parseTokens_cons fields hr.1 (hr.2 t (List.mem_cons_self ..)) rest
    rw [same]
    exact blames.refuses stop' (t :: rest') rfl nofun

end Clause

namespace Query

theorem parse_eq_error {registry : Registry} {text : String} {e : QueryError}
    (h : Clause.parseTokens registry.names (Token.tokenize false text) = .error e) :
    parse registry text = .error (.query e) := by
  rw [parse, h]

theorem exists_of_parse_error {registry : Registry} {text : String} {failure : Failure}
    (h : parse registry text = .error failure) : ∃ e, failure = .query e ∧
      Clause.parseTokens registry.names (Token.tokenize false text) = .error e := by
  unfold parse at h
  split at h
  · cases h
  · rename_i e he
    cases h
    exact ⟨e, rfl, he⟩

/--
A text that is not parsed has an error, which points at one of its tokens. The tokens before that
one can be completed to a query, but not together with it, and all texts with the same tokens up to
there have the same error.
-/
theorem parse_blames (registry : Registry) (text : String) (failure : Failure)
    (known : registry.handlers ≠ []) (h : parse registry text = .error failure) :
    ∃ e, failure = .query e ∧
      (∃ before t after, Token.tokenize false text = before ++ t :: after ∧
        e.position = some t.position) ∧
      ∀ before t after, Token.tokenize false text = before ++ t :: after →
        e.position = some t.position →
        Clause.Completable registry.names before ∧
        (∀ rest, Clause.parseTokens registry.names (before ++ t :: rest) = .error e) ∧
        ∀ text' after', Token.tokenize false text' = before ++ t :: after' →
          parse registry text' = .error failure := by
  obtain ⟨e, rfl, he⟩ := exists_of_parse_error h
  obtain ⟨body, stop, cut, canonical⟩ := Token.exists_canonical_tokenize text
  rw [cut] at he
  obtain ⟨before, t, after, split, place, complete, refused⟩ :=
    Clause.exists_fault (registry.names_ne_nil known) canonical he
  rw [← cut] at split
  refine ⟨e, rfl, ⟨before, t, after, split, place⟩, fun before' t' after' split' place' => ?_⟩
  -- The token of a text that stands at the position is the one at fault.
  obtain ⟨rfl, rfl, -⟩ :=
    Token.eq_of_append_cons split split' (Option.some.inj (place.symm.trans place'))
  refine ⟨complete, refused, fun text' after' same => parse_eq_error ?_⟩
  rw [same]
  exact refused after'

/-- A range that lacks its second end is refused because of the word that stands in its place. -/
theorem parse_blames_view :
    let text := "WHERE year BETWEEN 2023 VIEW table"
    let view : Token := ⟨.keyword (.choice .view), "VIEW", ⟨1, 25⟩⟩
    ∃ e before after, parse .standard text = .error (.query e) ∧
      Token.tokenize false text = before ++ view :: after ∧
      Clause.Completable Registry.standard.names before ∧
      ∀ text' after', Token.tokenize false text' = before ++ view :: after' →
        parse .standard text' = .error (.query e) := by
  intro text view
  let before : List Token :=
    [⟨.keyword .conditions, "WHERE", ⟨1, 1⟩⟩, ⟨.identifier "year", "year", ⟨1, 7⟩⟩,
      ⟨.keyword .between, "BETWEEN", ⟨1, 12⟩⟩, ⟨.number "2023", "2023", ⟨1, 20⟩⟩]
  let after : List Token := [⟨.identifier "table", "table", ⟨1, 30⟩⟩, ⟨.stop, "", ⟨1, 35⟩⟩]
  let e : QueryError := .located ⟨1, 25⟩ (.rangeBroken "'VIEW'")
  have cut : Token.tokenize false text = before ++ view :: after := by decide +kernel
  have refused : parse .standard text = .error (.query e) := by decide +kernel
  have known : Registry.standard.handlers ≠ [] := by decide +kernel
  obtain ⟨e', he, -, blamed⟩ := parse_blames .standard text _ known refused
  cases he
  obtain ⟨complete, -, same⟩ := blamed before view after cut rfl
  exact ⟨e, before, after, refused, cut, complete, same⟩

end Query

end Worklog
