import Worklog.Proofs.Clause.Likeness
import Worklog.Proofs.Query.Fault

/-!
# Two texts of a query

Clauses that are alike mean the same query, or are refused alike (`Query.agree_ofClauses`): what is
added to a query depends on no position, and an error of meaning is placed where a part of a clause
stands. So texts whose tokens are alike compile to the same query, or are refused alike
(`Query.agree_compile`).

As each text is like itself at its own positions, an error of compilation stands at one of the
tokens of the text (`Query.compile_error_stands`).
-/

namespace Worklog

variable {k : Likeness} {registry : Registry}

/-- The failures are errors that are alike, or the same failure, which is no error of a query. -/
inductive Failure.Like (k : Likeness) : Failure → Failure → Prop
  | query {e e' : QueryError} (h : e.Like k e') : Like k (.query e) (.query e')
  | other {failure : Failure} (h : ∀ e, failure ≠ .query e) : Like k failure failure

theorem agree_readNumber (raw : String) :
    Agree (Failure.Like k) Eq (readNumber raw) (readNumber raw) := by
  unfold readNumber readReal readInteger
  split
  · split
    · exact .ok rfl
    · exact .error (.other nofun)
  · split
    · exact .ok rfl
    · exact .error (.other nofun)
    · exact .error (.other nofun)

/-! ## Literals and conditions -/

namespace Literal

variable {l l' : Literal}

theorem Like.failure (h : l.Like k l') (cause : Cause) :
    (l.failure cause).Like k (l'.failure cause) :=
  .query (.same h.places cause)

theorem agree_read (hl : l.Like k l') (h : FieldHandler) :
    Agree (Failure.Like k) Eq (l.read h) (l'.read h) := by
  unfold read
  simp only [hl.kind_eq, hl.raw_eq]
  split
  · split
    · exact agree_readNumber _
    · exact .error (hl.failure _)
  · split
    · split
      · exact .ok rfl
      · exact .error (hl.failure _)
    · exact .error (hl.failure _)
  · exact .ok rfl

theorem agree_accepted (hl : l.Like k l') (h : FieldHandler) :
    Agree (Failure.Like k) Eq (l.accepted h) (l'.accepted h) := by
  refine (agree_read hl h).bind fun v v' hv => ?_
  subst hv
  split
  · exact .ok rfl
  · exact .error (hl.failure _)

end Literal

namespace Condition

variable {c c' : Condition}

theorem Like.failure (h : c.Like k c') (cause : Cause) :
    (c.failure cause).Like k (c'.failure cause) :=
  .query (.same h.places cause)

theorem agree_readTest (hc : c.Like k c') (h : FieldHandler) :
    Agree (Failure.Like k) Eq (c.readTest h) (c'.readTest h) := by
  have failure := hc.failure
  obtain ⟨field, test, position⟩ := c
  obtain ⟨field', test', position'⟩ := c'
  obtain ⟨-, test, -⟩ := hc
  unfold readTest
  cases test with
  | compare value =>
    dsimp only
    split
    · refine (Literal.agree_accepted value h).bind fun v v' hv => ?_
      exact .ok (congrArg _ hv)
    · exact .error (failure _)
  | range lower upper =>
    dsimp only
    split
    · refine (Literal.agree_accepted lower h).bind fun v v' hv => ?_
      refine (Literal.agree_accepted upper h).bind fun w w' hw => ?_
      subst hv hw
      rw [lower.raw_eq, upper.raw_eq]
      split
      · exact .error (failure _)
      · exact .ok rfl
    · exact .error (failure _)

theorem agree_read (hc : c.Like k c') :
    Agree (Failure.Like k) Eq (c.read registry) (c'.read registry) := by
  unfold read
  rw [hc.field_eq]
  split
  · exact .error (hc.failure _)
  · refine (agree_readTest hc _).bind fun t t' ht => ?_
    exact .ok (congrArg _ ht)

end Condition

/-! ## Columns -/

namespace ColumnItem

variable {c c' : ColumnItem}

theorem Like.failure (h : c.Like k c') (cause : Cause) :
    (c.failure cause).Like k (c'.failure cause) :=
  .query (.same h.places cause)

theorem agree_readFormat (name : Option String) :
    Agree (Failure.Like k) Eq (readFormat name) (readFormat name) := by
  unfold readFormat
  split
  · exact .ok rfl
  · exact .ok rfl
  · split
    · exact .ok rfl
    · exact .error (.other nofun)

theorem agree_read (hc : c.Like k c') : Agree (Failure.Like k) Eq c.read c'.read := by
  unfold read
  rw [hc.field_eq, hc.format_eq, hc.title_eq]
  split
  · exact .error (hc.failure _)
  · split
    · exact .error (hc.failure _)
    · refine (agree_readFormat _).bind fun f f' hf => ?_
      subst hf
      exact .ok rfl

end ColumnItem

/-! ## Clauses -/

namespace Query

theorem agree_member {α : Type} (ofName? : String → Option α) (group value : String) :
    Agree (Failure.Like k) Eq (member ofName? group value) (member ofName? group value) := by
  unfold member
  split
  · exact .ok rfl
  · exact .error (.other nofun)

theorem agree_choose (q : Query) (c : Choice) (value : String) :
    Agree (Failure.Like k) Eq (q.choose c value) (q.choose c value) := by
  cases c with
  | _ =>
    refine (agree_member _ _ value).bind fun v v' hv => ?_
    subst hv
    exact .ok rfl

theorem agree_addClause (q : Query) {c c' : Clause} (hc : c.Like k c') :
    Agree (Failure.Like k) Eq (q.addClause registry c) (q.addClause registry c') := by
  obtain ⟨body, position⟩ := c
  obtain ⟨body', position'⟩ := c'
  obtain ⟨body, -⟩ := hc
  cases body with
  | conditions items =>
    refine (Agree.mapM items fun _ _ => Condition.agree_read).bind fun ps ps' hps => ?_
    rw [List.forall₂_eq_eq_eq] at hps
    subst hps
    exact .ok rfl
  | columns items =>
    refine (Agree.mapM items fun _ _ => ColumnItem.agree_read).bind fun cs cs' hcs => ?_
    rw [List.forall₂_eq_eq_eq] at hcs
    subst hcs
    exact .ok rfl
  | choice c value => exact agree_choose q c value

/-- The last charts that are chosen stand at positions that correspond, if there are any. -/
theorem rel_lastChart? {cs cs' : List Clause} (h : List.Forall₂ (Clause.Like k) cs cs') :
    Option.Rel k.places (lastChart? cs) (lastChart? cs') := by
  unfold lastChart?
  have back : List.Forall₂ (Clause.Like k) cs.reverse cs'.reverse := List.forall₂_reverse_iff.2 h
  generalize cs.reverse = rs at back
  generalize cs'.reverse = rs' at back
  induction back with
  | nil => exact .none
  | @cons c c' rs rs' head tail ih =>
    obtain ⟨body, position⟩ := c
    obtain ⟨body', position'⟩ := c'
    obtain ⟨body, places⟩ := head
    cases body with
    | conditions items => exact ih
    | columns items => exact ih
    | choice c value =>
      cases c with
      | chart => exact .some places
      | _ => exact ih

theorem agree_checkChart (q : Query) {cs cs' : List Clause}
    (h : List.Forall₂ (Clause.Like k) cs cs') :
    Agree (Failure.Like k) Eq (q.checkChart cs) (q.checkChart cs') := by
  unfold checkChart
  have last := rel_lastChart? h
  revert last
  generalize lastChart? cs = p
  generalize lastChart? cs' = p'
  intro last
  cases last with
  | none => cases q.view <;> exact .ok rfl
  | some places =>
    cases q.view with
    | none => exact .ok rfl
    | some view =>
      dsimp only
      split
      · exact .ok rfl
      · exact .error (.query (.same places _))

/-- Clauses that are alike mean the same query, or are refused alike. -/
theorem agree_ofClauses {cs cs' : List Clause} (h : List.Forall₂ (Clause.Like k) cs cs') :
    Agree (Failure.Like k) Eq (ofClauses registry cs) (ofClauses registry cs') := by
  have folded : Agree (Failure.Like k) Eq (cs.foldlM (addClause registry) {})
      (cs'.foldlM (addClause registry) {}) := by
    refine Agree.foldlM h (fun q q' c c' hq hc => ?_) rfl
    subst hq
    exact agree_addClause q hc
  refine folded.bind fun q q' hq => ?_
  subst hq
  exact agree_checkChart q h

/-! ## Texts -/

variable (registry) in
theorem parse_eq_mapError (text : String) : ∃ body stop,
    Token.tokenize false text = body ++ [stop] ∧ parse registry text =
      (Clause.parseClauses registry.names stop.position body).mapError .query := by
  obtain ⟨body, stop, cut, canonical⟩ := Token.exists_canonical_tokenize text
  refine ⟨body, stop, cut, ?_⟩
  have reads : ∀ t ∈ body, Clause.Reads t := fun t ht =>
    ⟨canonical.ne_stop t ht, canonical.not_comment t ht⟩
  rw [parse, cut, Clause.parseTokens_stop reads canonical.stop_content]
  cases Clause.parseClauses registry.names stop.position body <;> rfl

theorem agree_parse {text text' : String} (h : List.Forall₂ (Token.Like k)
      (Token.tokenize false text) (Token.tokenize false text')) :
    Agree (Failure.Like k) (List.Forall₂ (Clause.Like k)) (parse registry text)
      (parse registry text') := by
  obtain ⟨body, stop, cut, parsed⟩ := parse_eq_mapError registry text
  obtain ⟨body', stop', cut', parsed'⟩ := parse_eq_mapError registry text'
  have back := List.forall₂_reverse_iff.2 h
  rw [cut, cut', List.reverse_concat, List.reverse_concat] at back
  rw [parsed, parsed']
  cases back with
  | cons last front =>
    exact (Clause.agree_parseClauses (List.forall₂_reverse_iff.1 front) last.places).mapError
      fun _ _ => .query

variable (registry) in
/-- Texts whose tokens are alike compile to the same query, or are refused alike. -/
theorem agree_compile {text text' : String} (h : List.Forall₂ (Token.Like k)
      (Token.tokenize false text) (Token.tokenize false text')) :
    Agree (Failure.Like k) Eq (compile registry text) (compile registry text') :=
  (agree_parse h).bind fun _ _ hcs => agree_ofClauses hcs

/-! ## Where errors stand -/

/--
An error of compilation, be it one of the words of the text or of their meaning, stands at one of
the tokens of the text.
-/
theorem compile_error_stands (registry : Registry) (text : String) (e : QueryError)
    (h : compile registry text = .error (.query e)) :
    ∃ t ∈ Token.tokenize false text, e.position = some t.position := by
  -- Only the positions of tokens correspond to anything, and they do so to themselves.
  let k : Likeness := ⟨fun p p' => p = p' ∧ ∃ t ∈ Token.tokenize false text, t.position = p, True⟩
  have alike : List.Forall₂ (Token.Like k) (Token.tokenize false text)
      (Token.tokenize false text) := by
    refine List.forall₂_same.2 fun t ht => ⟨rfl, fun _ => rfl, rfl, t, ht, rfl⟩
  have agree := agree_compile registry alike
  rw [h] at agree
  obtain ⟨failure, hf, like⟩ := agree.exists_of_error
  cases like with
  | other none => exact absurd rfl (none e)
  | query like =>
    cases like with
    | located places =>
      obtain ⟨-, t, ht, rfl⟩ := places
      exact ⟨t, ht, rfl⟩

/-- A range whose ends are the wrong way round is refused at its field. -/
theorem compile_error_stands_reversed :
    let text := "VIEW table // all\nWHERE date BETWEEN \"2024-02-01\" AND \"2024-01-31\""
    let e : QueryError := .located ⟨2, 7⟩ (.rangeReversed "date" "2024-02-01" "2024-01-31")
    compile .standard text = .error (.query e) ∧
      ∃ t ∈ Token.tokenize false text, some ⟨2, 7⟩ = some t.position := by
  intro text e
  have refused : compile .standard text = .error (.query e) := by decide +kernel
  exact ⟨refused, compile_error_stands .standard text e refused⟩

end Query

end Worklog
