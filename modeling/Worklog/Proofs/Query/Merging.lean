import Worklog.Proofs.Clause.Parsing
import Worklog.Proofs.Query.Interpretation
import Worklog.Proofs.Query.Moving

/-!
# Texts that are written one below the other

Two texts with a line feed between them are compiled to the merged query (`Query.merge`): the
predicates of both, and of every choice the later one. Clause by clause, merging with a first query
commutes with what is added to the second one (`Query.foldlM_merge`). Only the check that a chart
is shown looks at several clauses at once, so it is the only one that two texts may fail together
(`Query.compile_append`).
-/

namespace Worklog

namespace Query

/-! ## Merging -/

/--
Two queries in one: the predicates of both, and of everything else what the second one says, if it
says anything.
-/
def merge (q r : Query) : Query where
  conditions := q.conditions.merge (· ++ ·) r.conditions
  columns := r.columns.or q.columns
  view := r.view.or q.view
  chart := r.chart.or q.chart
  period := r.period.or q.period
  size := r.size.or q.size

theorem merge_empty (q : Query) : q.merge {} = q := by
  obtain ⟨conditions, columns, view, chart, period, size⟩ := q
  cases conditions <;> rfl

theorem predicates_merge (q r : Query) :
    (q.merge r).predicates = q.predicates ++ r.predicates := by
  unfold predicates merge
  cases q.conditions with
  | none => cases r.conditions <;> rfl
  | some ps =>
    cases r.conditions with
    | none => exact (List.append_nil ps).symm
    | some _ => rfl

theorem mem_written_iff {q : Query} {name : String} : name ∈ q.written ↔
    q.chart.isSome = true ∧ "chart" = name ∨ q.period.isSome = true ∧ "period" = name ∨
      q.columns.isSome = true ∧ "show" = name ∨ q.size.isSome = true ∧ "size" = name ∨
      q.view.isSome = true ∧ "view" = name ∨ q.conditions.isSome = true ∧ "where" = name := by
  simp only [written, List.mem_filterMap, List.exists_mem_cons_iff, List.not_mem_nil, false_and,
    exists_false, or_false, Option.ite_none_right_eq_some, Option.some.injEq]

theorem mem_written_merge (q r : Query) (name : String) :
    name ∈ (q.merge r).written ↔ name ∈ q.written ∨ name ∈ r.written := by
  have conditions : (q.merge r).conditions.isSome =
      (q.conditions.isSome || r.conditions.isSome) := by
    unfold merge
    cases q.conditions <;> cases r.conditions <;> rfl
  rw [mem_written_iff, mem_written_iff, mem_written_iff, conditions]
  simp only [merge, Option.isSome_or, Bool.or_eq_true, or_and_right]
  grind

/-! ## What clauses add to a merged query -/

variable {registry : Registry}

theorem addClause_merge (q r : Query) (c : Clause) :
    (q.merge r).addClause registry c = (r.addClause registry c).map q.merge := by
  obtain ⟨body, position⟩ := c
  cases body with
  | conditions items =>
    simp only [addClause, predicates_merge]
    cases items.mapM fun item => item.read registry with
    | error failure => rfl
    | ok ps =>
      have added : q.conditions.merge (· ++ ·) (some (r.predicates ++ ps)) =
          some (q.predicates ++ r.predicates ++ ps) := by
        unfold predicates
        cases q.conditions with
        | none => rfl
        | some _ => exact congrArg some (List.append_assoc ..).symm
      simp only [bind, Except.bind, Except.map, merge, added]
  | columns items =>
    simp only [addClause]
    cases items.mapM ColumnItem.read <;> rfl
  | choice c value =>
    cases c with
    | view =>
      simp only [addClause, choose]
      cases member View.ofName? "ViewType" value <;> rfl
    | chart =>
      simp only [addClause, choose]
      cases member Chart.ofName? "ChartType" value <;> rfl
    | period =>
      simp only [addClause, choose]
      cases member Period.ofName? "PeriodType" value <;> rfl
    | size =>
      simp only [addClause, choose]
      cases member Size.ofName? "SizeType" value <;> rfl
  | unknown name => rfl

theorem foldlM_merge (q r : Query) (clauses : List Clause) :
    clauses.foldlM (addClause registry) (q.merge r) =
      (clauses.foldlM (addClause registry) r).map q.merge := by
  induction clauses generalizing r with
  | nil => rfl
  | cons c clauses ih =>
    rw [List.foldlM_cons, List.foldlM_cons, addClause_merge]
    cases addClause registry r c with
    | error failure => rfl
    | ok r' => exact ih r'

/-- Clauses that a query goes on with are read as if they began one, which is merged then. -/
theorem foldlM_eq_merge (q : Query) (clauses : List Clause) :
    clauses.foldlM (addClause registry) q =
      (clauses.foldlM (addClause registry) {}).map q.merge := by
  rw [← foldlM_merge, merge_empty]

theorem foldlM_append {q r : Query} {cs ds : List Clause}
    (hc : cs.foldlM (addClause registry) {} = .ok q)
    (hd : ds.foldlM (addClause registry) {} = .ok r) :
    (cs ++ ds).foldlM (addClause registry) {} = .ok (q.merge r) := by
  rw [List.foldlM_append, hc]
  change ds.foldlM (addClause registry) q = _
  rw [foldlM_eq_merge, hd]
  rfl

/-! ## Charts that the view does not show -/

/-- A chart is chosen together with a view that shows none. -/
def HidesChart (q : Query) : Prop :=
  ∃ view chart, q.view = some view ∧ q.chart = some chart ∧ view ≠ .chart ∧ view ≠ .full

/-- The last clause that chooses a chart stands at the position. -/
def LastChartAt (clauses : List Clause) (position : Position) : Prop :=
  ∃ before value after, clauses = before ++ ⟨.choice .chart value, position⟩ :: after ∧
    ∀ c ∈ after, ∀ v, c.body ≠ .choice .chart v

theorem lastChartAt_of_lastChart? {clauses : List Clause} {position : Position}
    (h : lastChart? clauses = some position) : LastChartAt clauses position := by
  obtain ⟨⟨body, position⟩, hc, rfl⟩ := Option.map_eq_some_iff.1 h
  obtain ⟨hchart, after, before, split, none⟩ := List.find?_eq_some_iff_append.1 hc
  dsimp only at hchart
  split at hchart
  · rename_i value
    refine ⟨before.reverse, value, after.reverse, ?_, ?_⟩
    · rw [← List.reverse_reverse clauses, split]
      simp
    · intro c hc v hv
      have := none c (List.mem_reverse.1 hc)
      rw [hv] at this
      cases this
  · cases hchart

/-! ## The check that a chart is shown -/

theorem foldlM_of_ofClauses {clauses : List Clause} {q : Query}
    (h : ofClauses registry clauses = .ok q) :
    clauses.foldlM (addClause registry) {} = .ok q := by
  obtain ⟨q', hq, h⟩ := exists_of_bind_ok h
  rwa [eq_of_checkChart h]

theorem chart_choose {q q' : Query} {c : Choice} {value : String}
    (h : q.choose c value = .ok q') : q'.chart.isSome = (q.chart.isSome || (c == .chart)) := by
  cases c with
  | _ =>
    obtain ⟨v, -, h⟩ := exists_of_bind_ok h
    cases h
    simp

theorem isSome_lastChart?_append (clauses : List Clause) (c : Clause) :
    (lastChart? (clauses ++ [c])).isSome =
      ((lastChart? clauses).isSome || (lastChart? [c]).isSome) := by
  simp only [lastChart?, List.reverse_append, List.reverse_singleton, List.singleton_append,
    Option.isSome_map, List.find?_cons]
  split <;> simp

theorem isSome_chart {clauses : List Clause} {q : Query}
    (h : clauses.foldlM (addClause registry) {} = .ok q) :
    q.chart.isSome = (lastChart? clauses).isSome := by
  -- The invariant of the clauses seen so far: the query has a chart if one of them chooses it.
  refine foldlM_ok (fun seen (q : Query) => q.chart.isSome = (lastChart? seen).isSome) rfl ?_ h
  intro seen q c q' _ hs hc
  rw [isSome_lastChart?_append, ← hs]
  obtain ⟨body, position⟩ := c
  unfold addClause at hc
  cases body with
  | conditions items =>
    obtain ⟨ps, -, hc⟩ := exists_of_bind_ok hc
    cases hc
    exact (Bool.or_false _).symm
  | columns items =>
    obtain ⟨cs, -, hc⟩ := exists_of_bind_ok hc
    cases hc
    exact (Bool.or_false _).symm
  | choice c value =>
    rw [chart_choose hc]
    cases c <;> rfl
  | unknown name => cases hc

theorem showsChart_iff (v : View) : v.showsChart = true ↔ v = .chart ∨ v = .full := by
  cases v <;> simp [View.showsChart]

theorem ofClauses_of_not_hidesChart {clauses : List Clause} {q : Query}
    (h : clauses.foldlM (addClause registry) {} = .ok q) (hq : ¬ q.HidesChart) :
    ofClauses registry clauses = .ok q := by
  rw [ofClauses, h]
  change q.checkChart clauses = .ok q
  unfold checkChart
  split
  · rename_i view position hv hp
    have chosen := isSome_chart h
    rw [hp] at chosen
    obtain ⟨chart, hc⟩ := Option.isSome_iff_exists.1 chosen
    rw [if_pos]
    by_contra hidden
    rw [showsChart_iff, not_or] at hidden
    exact hq ⟨view, chart, hv, hc, hidden⟩
  · rfl

theorem ofClauses_of_hidesChart {clauses : List Clause} {q : Query}
    (h : clauses.foldlM (addClause registry) {} = .ok q) (hq : q.HidesChart) :
    ∃ position, LastChartAt clauses position ∧
      ofClauses registry clauses = .error (.query (.located position .chartWithoutView)) := by
  obtain ⟨view, chart, hv, hc, hidden⟩ := hq
  have chosen := isSome_chart h
  rw [hc] at chosen
  obtain ⟨position, hp⟩ := Option.isSome_iff_exists.1 chosen.symm
  refine ⟨position, lastChartAt_of_lastChart? hp, ?_⟩
  rw [ofClauses, h]
  change q.checkChart clauses = _
  rw [checkChart, hv, hp]
  rw [← not_or, ← showsChart_iff] at hidden
  exact if_neg hidden

/-- Every other reason to refuse clauses is one of the clauses themselves. -/
theorem error_of_ofClauses {clauses : List Clause} {failure : Failure}
    (h : ofClauses registry clauses = .error failure)
    (other : ∀ position, failure ≠ .query (.located position .chartWithoutView)) :
    clauses.foldlM (addClause registry) {} = .error failure := by
  rcases error_or_of_bind_error h with h | ⟨q, -, h⟩
  · exact h
  · unfold checkChart at h
    split at h
    · split at h
      · cases h
      · cases h
        exact absurd rfl (other _)
    · cases h

/-! ## The clauses of two texts -/

theorem parse_append_newline {first second : String} {cs ds : List Clause}
    (hc : parse registry first = .ok cs) (hd : parse registry second = .ok ds) :
    parse registry (first ++ "\n" ++ second) =
      .ok (cs ++ ds.map (Clause.moved (.down (first.toList.count '\n' + 1)))) := by
  obtain ⟨body, stop, cut, canonical, written⟩ := exists_of_parse hc
  obtain ⟨body', stop', cut', canonical', written'⟩ := exists_of_parse hd
  have closed : ∀ t ∈ body, ∀ quote, t.content ≠ .invalid (.openQuote quote) := by
    intro t ht quote hq
    exact written.valid t ht _ hq
  have joined := Token.tokenize_append_newline cut closed second
  rw [cut', List.map_append, ← List.append_assoc] at joined
  obtain ⟨body'', stop'', cut'', canonical''⟩ :=
    Token.exists_canonical_tokenize (first ++ "\n" ++ second)
  obtain ⟨rfl, -⟩ := List.append_inj' (cut''.symm.trans joined) rfl
  rw [parse, cut'', (Clause.parseTokens_eq_ok_iff canonical'').2
    (written.append (written'.moved _))]

theorem foldlM_append_moved {q r : Query} {cs ds : List Clause} (f : Position → Position)
    (hc : ofClauses registry cs = .ok q) (hd : ofClauses registry ds = .ok r) :
    (cs ++ ds.map (Clause.moved f)).foldlM (addClause registry) {} = .ok (q.merge r) := by
  refine foldlM_append (foldlM_of_ofClauses hc) ?_
  rw [foldlM_map_mapError (addClause_moved f), foldlM_of_ofClauses hd]
  rfl

/--
Two texts, one below the other, mean the merged query, unless its view does not show the chart that
it has. And why the clauses of the first text are refused, the check of the chart apart, is why both
are.
-/
theorem compile_append (registry : Registry) (first second : String) :
    (∀ q r, compile registry first = .ok q → compile registry second = .ok r →
      (q.merge r).predicates = q.predicates ++ r.predicates ∧
      (∀ name, name ∈ (q.merge r).written ↔ name ∈ q.written ∨ name ∈ r.written) ∧
      (¬ (q.merge r).HidesChart →
        compile registry (first ++ "\n" ++ second) = .ok (q.merge r)) ∧
      ((q.merge r).HidesChart → ∃ clauses position,
        parse registry (first ++ "\n" ++ second) = .ok clauses ∧ LastChartAt clauses position ∧
        compile registry (first ++ "\n" ++ second) =
          .error (.query (.located position .chartWithoutView)))) ∧
    ∀ cs ds failure, parse registry first = .ok cs → ofClauses registry cs = .error failure →
      (∀ position, failure ≠ .query (.located position .chartWithoutView)) →
      parse registry second = .ok ds →
      compile registry (first ++ "\n" ++ second) = .error failure := by
  constructor
  · intro q r hq hr
    obtain ⟨cs, hc, hq⟩ := exists_of_bind_ok hq
    obtain ⟨ds, hd, hr⟩ := exists_of_bind_ok hr
    have parsed := parse_append_newline hc hd
    have folded := foldlM_append_moved (.down (first.toList.count '\n' + 1)) hq hr
    refine ⟨predicates_merge q r, mem_written_merge q r, fun shown => ?_, fun hidden => ?_⟩
    · rw [compile, parsed]
      exact ofClauses_of_not_hidesChart folded shown
    · obtain ⟨position, last, failed⟩ := ofClauses_of_hidesChart folded hidden
      refine ⟨_, position, parsed, last, ?_⟩
      rw [compile, parsed]
      exact failed
  · intro cs ds failure hc refused other hd
    have failed := error_of_ofClauses refused other
    rw [compile, parse_append_newline hc hd]
    change ofClauses registry _ = _
    rw [ofClauses, List.foldlM_append, failed]
    rfl

/--
A comment ends with its line, and the last period counts; a chart below a table is refused, and so
is a month that no year has.
-/
theorem compile_append_cases :
    let year : Query :=
      ⟨some [⟨"year", .compare .eq (.int 2024)⟩], none, none, none, some .allTime, none⟩
    let month : Query :=
      ⟨some [⟨"month", .compare .eq (.int 3)⟩], none, none, none, some .last6Months, none⟩
    let outside : Failure := .query (.located ⟨1, 15⟩ (.outOfBounds "month" 1 12 (.int 13)))
    compile .standard ("WHERE year = 2024 PERIOD all-time // the year" ++ "\n" ++
      "WHERE month = 3 PERIOD last-6-months") = .ok (year.merge month) ∧
    (∃ clauses position,
      parse .standard ("VIEW table" ++ "\n" ++ "CHART trend") = .ok clauses ∧
      LastChartAt clauses position ∧ compile .standard ("VIEW table" ++ "\n" ++ "CHART trend") =
        .error (.query (.located position .chartWithoutView))) ∧
    compile .standard ("WHERE month = 13" ++ "\n" ++ "CHART trend") = .error outside := by
  intro year month outside
  refine ⟨?_, ?_, ?_⟩
  · have shown : ¬ (year.merge month).HidesChart := by
      rintro ⟨view, chart, hv, -⟩
      cases hv
    exact ((compile_append ..).1 year month (ok_of_toOption (by decide +kernel))
      (ok_of_toOption (by decide +kernel))).2.2.1 shown
  · exact ((compile_append ..).1 { view := some .table } { chart := some .trend }
      (ok_of_toOption (by decide +kernel)) (ok_of_toOption (by decide +kernel))).2.2.2
      ⟨.table, .trend, rfl, rfl, nofun, nofun⟩
  · let clauses : List Clause := [⟨.conditions
      [⟨"month", .compare .eq ⟨.number, "13", ⟨1, 15⟩⟩, ⟨1, 7⟩⟩], ⟨1, 1⟩⟩]
    have refused : ofClauses .standard clauses = .error outside := by decide +kernel
    have other : ∀ position, outside ≠ .query (.located position .chartWithoutView) := by
      simp [outside, QueryError.located]
    exact (compile_append ..).2 clauses [⟨.choice .chart "trend", ⟨1, 1⟩⟩] outside
      (by decide +kernel) refused other (by decide +kernel)

end Query

end Worklog
