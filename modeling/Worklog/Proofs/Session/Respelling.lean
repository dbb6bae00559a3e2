import Worklog.Proofs.Query.Respelling
import Worklog.Proofs.Session.Selection

/-!
# Reports of texts that are spelled otherwise

The conditions that are spelled for another one admit the entries that it admits, and they restrict
time if it does (`Condition.Respelled.exists_predicates`). Everything else in the query stays as it
is, so both texts are answered with the same report (`runQuery_respelled`), whichever way the
predicates of each of them take: down to the source, in the place of the period, or in memory.
-/

namespace Worklog

/-! ## Tests that ask the same -/

theorem Date.Spans.le {n : Nat} {start stop : Date} (h : start.Spans stop n) : start ≤ stop := by
  obtain ⟨h₁, h₂, h₃, h₄, h₅, h₆⟩ := h
  change start.stamp ≤ stop.stamp
  simp only [stamp]
  omega

namespace Rule

variable {r : Rule} {settings : Settings}

/-- Fields that are compared with a threshold. -/
def HasThresholds (r : Rule) : Prop :=
  r = .utilization ∨ r = .value ∨ r = .hours

theorem HasThresholds.matcher_eq (hr : r.HasThresholds) (t : Test Value) (settings : Settings) :
    r.matcher t settings = r.thresholdMatcher t settings := by
  obtain rfl | rfl | rfl := hr <;> rfl

/-- Within a range is at least its lower end and at most its upper one. -/
theorem HasThresholds.admits_range (hr : r.HasThresholds) (low high : Value) (e : Entry) :
    r.admits (.range low high) settings e =
      (r.admits (.compare .ge low) settings e && r.admits (.compare .le high) settings e) := by
  unfold admits
  rw [hr.matcher_eq, hr.matcher_eq, hr.matcher_eq]
  change judgement (.ok fun _ => Value.isWithin _ low high) e =
    (judgement (.ok fun _ => comparable (low.atMost? _)) e &&
      judgement (.ok fun _ => comparable (Value.atMost? _ high)) e)
  unfold judgement Value.isWithin
  dsimp only
  generalize Value.float (r.measured settings e) = v
  cases low.atMost? v with
  | none => rfl
  | some above =>
    cases above with
    | false => rfl
    | true => rfl

/-- A threshold reads the equality sign as "at least". -/
theorem HasThresholds.admits_eq (hr : r.HasThresholds) (v : Value) (e : Entry) :
    r.admits (.compare .eq v) settings e = r.admits (.compare .ge v) settings e := by
  unfold admits
  rw [hr.matcher_eq, hr.matcher_eq]
  rfl

/-- A day of a year is one from its first day to its last. -/
theorem admits_spans {n : Nat} {start stop : Date} (spans : start.Spans stop n) (e : Entry) :
    Rule.date.admits (.range (.date start) (.date stop)) settings e =
      Rule.year.admits (.compare .eq (.int n)) settings e := by
  have hm := e.date.month_pos
  have hme := e.date.month_le
  have hd := e.date.day_pos
  have hde := Nat.le_trans e.date.day_le (Date.daysInMonth_le ..)
  rw [admits_year rfl, admits_date (r := ⟨start, stop, spans.le⟩) rfl rfl, Bool.eq_iff_iff,
    DateRange.contains, Bool.and_eq_true, decide_eq_true_iff, decide_eq_true_iff, beq_iff_eq]
  obtain ⟨h₁, h₂, h₃, h₄, h₅, h₆⟩ := spans
  change start.stamp ≤ e.date.stamp ∧ e.date.stamp ≤ stop.stamp ↔ (n : Int) = e.date.year
  simp only [Date.stamp]
  omega

end Rule

/-! ## Reading what is spelled -/

theorem Value.less?_date_ne {d e : Date} (h : d ≤ e) :
    less? (.date e) (.date d) ≠ some true := by
  rw [less?_date, decide_eq_false (Date.not_lt.2 h)]
  nofun

theorem Literal.accepted_moved {h : FieldHandler} {l : Literal} {v : Value}
    (f : Position → Position) (hl : l.accepted h = .ok v) : (l.moved f).accepted h = .ok v := by
  rw [eq_mapError_of_agree (Literal.agree_accepted (l.like_moved f) h), hl]
  rfl

theorem Literal.accepted_eq_ok {h : FieldHandler} {l : Literal} {v w : Value}
    (read : l.read h = .ok v) (accept : h.rule.accept v = .ok w) : l.accepted h = .ok w := by
  rw [accepted, read]
  simp only [bind, Except.bind, accept]

theorem Literal.accepted_year {digits : String} {v : Value} {n : Nat} {position : Position}
    (reads : readNumber digits = .ok v) (accepts : Rule.year.accept v = .ok (.int n)) :
    Literal.accepted (.standard .year) ⟨.number, digits, position⟩ = .ok (.int n) := by
  have kind : (FieldHandler.standard .year).rule.kind = .number := rfl
  refine accepted_eq_ok ?_ accepts
  simp only [read, kind, if_true, reads]

theorem Literal.accepted_date {s : String} {d : Date} {position : Position}
    (reads : Date.parse s = .ok d) :
    Literal.accepted (.standard .date) ⟨.date, s, position⟩ = .ok (.date d) := by
  have kind : (FieldHandler.standard .date).rule.kind = .date := rfl
  refine accepted_eq_ok ?_ rfl
  simp only [read, kind, if_true, reads]

namespace Condition

variable {registry : Registry} {name : String} {position : Position} {p : Predicate}

theorem read_compare_eq_ok {op : Operator} {l : Literal} :
    read registry ⟨name, .compare op l, position⟩ = .ok p ↔
      ∃ h v, registry.get? name = some h ∧ h.accepts op = true ∧ l.accepted h = .ok v ∧
        p = ⟨h.name, .compare op v⟩ := by
  constructor
  · intro hr
    obtain ⟨h, found, field, ht⟩ := exists_of_read hr
    obtain ⟨ha, ⟨_, _, v, shape, test, hv⟩ | ⟨_, _, _, _, shape, -⟩⟩ := cases_of_readTest ht
    · cases shape
      obtain ⟨_, _⟩ := p
      cases field
      cases test
      exact ⟨h, v, found, ha, hv, rfl⟩
    · cases shape
  · rintro ⟨h, v, found, ha, hv, rfl⟩
    simp only [read, found, readTest, ha, if_true, hv]
    rfl

theorem read_range_eq_ok {low high : Literal} :
    read registry ⟨name, .range low high, position⟩ = .ok p ↔
      ∃ h v w, registry.get? name = some h ∧ h.accepts .between = true ∧
        low.accepted h = .ok v ∧ high.accepted h = .ok w ∧ w.less? v ≠ some true ∧
        p = ⟨h.name, .range v w⟩ := by
  constructor
  · intro hr
    obtain ⟨h, found, field, ht⟩ := exists_of_read hr
    obtain ⟨ha, ⟨_, _, _, shape, -⟩ | ⟨_, _, v, w, shape, test, hv, hw, ordered⟩⟩ :=
      cases_of_readTest ht
    · cases shape
    · cases shape
      obtain ⟨_, _⟩ := p
      cases field
      cases test
      exact ⟨h, v, w, found, ha, hv, hw, ordered, rfl⟩
  · rintro ⟨h, v, w, found, ha, hv, hw, ordered, rfl⟩
    simp only [read, found, readTest, ha, if_true, hv, hw]
    exact congrArg (· >>= fun t => Except.ok (Predicate.mk h.name t)) (if_neg ordered)

end Condition

theorem exists_rule_of_threshold {field : String} (h : field ∈ thresholdFields) :
    ∃ r : Rule, r.HasThresholds ∧ field = r.name := by
  simp only [thresholdFields, List.mem_cons, List.not_mem_nil, or_false] at h
  rcases h with rfl | rfl | rfl
  · exact ⟨.utilization, .inl rfl, rfl⟩
  · exact ⟨.value, .inr (.inl rfl), rfl⟩
  · exact ⟨.hours, .inr (.inr rfl), rfl⟩

theorem FieldHandler.accepts_standard {r : Rule} (hr : r.HasThresholds) {op : Operator}
    (h : op ∈ thresholds) : (standard r).accepts op = true := by
  have ne : op ≠ .between := by
    rintro rfl
    revert h
    decide
  rw [accepts, if_neg ne, operators_standard hr, decide_eq_true_iff]
  exact h

/-! ## Respelled conditions -/

/-- Predicates that together admit what one admits, and restrict time if it does. -/
structure Predicate.SpelledBy (registry : Registry) (p : Predicate) (ps : List Predicate) :
    Prop where
  admits_eq : ∀ settings e,
    (ps.all fun q => q.admits registry settings e) = p.admits registry settings e
  restricts_eq : (ps.any fun q => q.field ∈ ["year", "month", "date"]) =
    decide (p.field ∈ ["year", "month", "date"])

section Conditions

variable {registry : Registry}

theorem Predicate.admits_mk {name : String} {h : FieldHandler} {settings : Settings}
    (found : registry.get? name = some h) (t : Test Value) (e : Entry) :
    Predicate.admits registry settings ⟨name, t⟩ e = h.rule.admits t settings e :=
  admits_of_get? (p := ⟨name, t⟩) found e

theorem Predicate.spelledBy_range {r : Rule} (hr : r.HasThresholds)
    (found : registry.get? r.name = some (.standard r)) (low high : Value) :
    SpelledBy registry ⟨r.name, .range low high⟩
      [⟨r.name, .compare .ge low⟩, ⟨r.name, .compare .le high⟩] where
  admits_eq settings e := by
    rw [List.all_cons, List.all_cons, List.all_nil, Bool.and_true, admits_mk found,
      admits_mk found, admits_mk found]
    exact (hr.admits_range low high e).symm
  restricts_eq := by simp

theorem Predicate.spelledBy_equality {r : Rule} (hr : r.HasThresholds)
    (found : registry.get? r.name = some (.standard r)) (v : Value) :
    SpelledBy registry ⟨r.name, .compare .eq v⟩ [⟨r.name, .compare .ge v⟩] where
  admits_eq settings e := by
    rw [List.all_cons, List.all_nil, Bool.and_true, admits_mk found, admits_mk found]
    exact (hr.admits_eq v e).symm
  restricts_eq := by simp

theorem Predicate.spelledBy_day (found : registry.get? "date" = some (.standard .date)) (d : Date) :
    SpelledBy registry ⟨"date", .compare .eq (.date d)⟩
      [⟨"date", .range (.date d) (.date d)⟩] where
  admits_eq settings e := by
    let day : DateRange := ⟨d, d, Nat.le_refl _⟩
    rw [List.all_cons, List.all_nil, Bool.and_true, admits_mk found, admits_mk found]
    exact (Rule.admits_date (r := day) rfl rfl e).trans
      (Rule.admits_date (r := day) rfl rfl e).symm
  restricts_eq := by simp

theorem Predicate.spelledBy_year (found : registry.get? "year" = some (.standard .year))
    (date : registry.get? "date" = some (.standard .date)) {n : Nat} {start stop : Date}
    (spans : start.Spans stop n) :
    SpelledBy registry ⟨"year", .compare .eq (.int n)⟩
      [⟨"date", .range (.date start) (.date stop)⟩] where
  admits_eq settings e := by
    rw [List.all_cons, List.all_nil, Bool.and_true, admits_mk found, admits_mk date]
    exact Rule.admits_spans spans e
  restricts_eq := by simp

/-- A comparison with a threshold is read wherever the threshold could be read. -/
theorem Condition.read_threshold {r : Rule} (hr : r.HasThresholds)
    (found : registry.get? r.name = some (.standard r)) {op : Operator}
    (hop : op ∈ FieldHandler.thresholds) {l : Literal} {v : Value}
    (value : l.accepted (.standard r) = .ok v) (f : Position → Position) (position : Position) :
    Condition.read registry ⟨r.name, .compare op (l.moved f), position⟩ =
      .ok ⟨r.name, .compare op v⟩ :=
  read_compare_eq_ok.2 ⟨_, v, found, FieldHandler.accepts_standard hr hop,
    Literal.accepted_moved f value, rfl⟩

variable {c : Condition} {cs : List Condition} {p : Predicate}

/-- The conditions that are spelled for another one are read if it is, and ask for the same. -/
theorem Condition.Respelled.exists_predicates (hr : registry.IsDefault) (h : c.Respelled cs)
    (read : c.read registry = .ok p) :
    ∃ ps, cs.mapM (fun c => c.read registry) = .ok ps ∧ p.SpelledBy registry ps := by
  cases h with
  | @range _ low high _ q q' f g threshold =>
    obtain ⟨r, hr', rfl⟩ := exists_rule_of_threshold threshold
    obtain ⟨h, v, w, found, -, hv, hw, -, rfl⟩ := read_range_eq_ok.1 read
    obtain rfl := hr.eq_standard found
    have atLeast := read_threshold hr' found (by decide : Operator.ge ∈ _) hv f q
    have atMost := read_threshold hr' found (by decide : Operator.le ∈ _) hw g q'
    exact ⟨_, mapM_eq_ok_iff.2 (.cons atLeast (.cons atMost .nil)),
      Predicate.spelledBy_range hr' found v w⟩
  | @equality _ l _ q f threshold =>
    obtain ⟨r, hr', rfl⟩ := exists_rule_of_threshold threshold
    obtain ⟨h, v, found, -, hv, rfl⟩ := read_compare_eq_ok.1 read
    obtain rfl := hr.eq_standard found
    have atLeast := read_threshold hr' found (by decide : Operator.ge ∈ _) hv f q
    exact ⟨_, mapM_eq_ok_iff.2 (.cons atLeast .nil), Predicate.spelledBy_equality hr' found v⟩
  | @day l _ q f g =>
    obtain ⟨h, v, found, -, hv, rfl⟩ := read_compare_eq_ok.1 read
    obtain rfl := hr.eq_standard (r := .date) found
    obtain ⟨d, rfl⟩ := Literal.takes_of_accepted hv
    have range : Condition.read registry ⟨"date", .range (l.moved f) (l.moved g), q⟩ = _ :=
      read_range_eq_ok.2 ⟨_, .date d, .date d, found, by decide, Literal.accepted_moved f hv,
        Literal.accepted_moved g hv, Value.less?_date_ne (Nat.le_refl _), rfl⟩
    exact ⟨_, mapM_eq_ok_iff.2 (.cons range .nil), Predicate.spelledBy_day found d⟩
  | @year digits first last v n start stop p q r s t reads accepts low high spans =>
    obtain ⟨h, w, found, -, hw, rfl⟩ := read_compare_eq_ok.1 read
    obtain rfl := hr.eq_standard (r := .year) found
    cases (Literal.accepted_year reads accepts).symm.trans hw
    have range :
        Condition.read registry ⟨"date", .range ⟨.date, first, r⟩ ⟨.date, last, s⟩, t⟩ = _ :=
      read_range_eq_ok.2 ⟨_, .date start, .date stop, hr.get?_date, by decide,
        Literal.accepted_date low, Literal.accepted_date high, Value.less?_date_ne spans.le, rfl⟩
    exact ⟨_, mapM_eq_ok_iff.2 (.cons range .nil),
      Predicate.spelledBy_year found hr.get?_date spans⟩

end Conditions

/-! ## Respelled texts -/

section Texts

variable {registry : Registry} {settings : Settings} {today : Date}

/-- Predicates in the place of one that asks for the same select the same entries. -/
theorem Query.selects_spelled {q : Query} {before after ps : List Predicate} {p : Predicate}
    (predicates : q.predicates = before ++ p :: after) (spelled : p.SpelledBy registry ps) :
    selects { q with conditions := some (before ++ ps ++ after) } registry settings today =
      q.selects registry settings today := by
  have restricts : restrictsTime { q with conditions := some (before ++ ps ++ after) } =
      q.restrictsTime := by
    rw [restrictsTime, restrictsTime, predicates]
    change (before ++ ps ++ after).any _ = _
    rw [List.any_append, List.any_append, spelled.restricts_eq, List.any_append, List.any_cons,
      Bool.or_assoc]
  funext e
  rw [selects, selects, restricts, predicates]
  change ((before ++ ps ++ after).all _ && _) = _
  rw [List.all_append, List.all_append, spelled.admits_eq, List.all_append, List.all_cons,
    Bool.and_assoc (before.all _)]
  rfl

/--
A text with a condition that is spelled otherwise, wherever that stands, compiles if the text does,
and is answered with the same report.
-/
theorem runQuery_respelled (hr : registry.IsDefault) {text text' : String}
    {before old new after : List (Token.Content × String)}
    (h : (Token.tokenize false text).map Token.wording = before ++ old ++ after)
    (h' : (Token.tokenize false text').map Token.wording = before ++ new ++ after)
    (spelled : Token.Respelling (old.map Prod.fst) (new.map Prod.fst))
    (compiles : ∃ q, Query.compile registry text = .ok q) (ht : 2 ≤ today.year)
    (settings : Settings) (entries : List Entry) :
    (∃ q, Query.compile registry text' = .ok q) ∧
      ∃ report, runQuery registry settings today entries text = .ok report ∧
        runQuery registry settings today entries text' = .ok report := by
  obtain ⟨q, hq⟩ := compiles
  obtain ⟨clauses, parsed, read⟩ := exists_of_bind_ok hq
  obtain ⟨k, c, cs, f, rfl, parsed', respelled⟩ :=
    Query.exists_respelled h h' spelled hr.date_mem_names parsed
  obtain ⟨before, p, after, hp, predicates, filled⟩ := Query.ofClauses_frame read f
  obtain ⟨ps, hps, same⟩ := respelled.exists_predicates hr hp
  let q' : Query := { q with conditions := some (before ++ ps ++ after) }
  have hq' : Query.compile registry text' = .ok q' := by
    rw [Query.compile, parsed']
    exact filled cs ps hps
  refine ⟨⟨q', hq'⟩, _, hr.runQuery_eq hq ht settings entries, ?_⟩
  rw [hr.runQuery_eq hq' ht settings entries, Query.selects_spelled predicates same]
  rfl

end Texts

/-- A year becomes the range of its days, for which the source then has no room beside the day. -/
theorem runQuery_respelled_year :
    let registry := (Registry.standard.edit (.addEntryFields false)).1
    let front := "WHERE hours >= 0 AND date = \"2024-02-29\" AND "
    let text := front ++ "year = 2024.0"
    let text' := front ++ "date BETWEEN \"2024-01-01\" AND \"2024-12-31\""
    let leapDay : Date := ⟨2024, 2, 29, by decide, by decide, by decide, by decide, by decide,
      by decide⟩
    let entries := [Entry.blank leapDay none, Entry.blank Plan.lateAugust none]
    (∃ q, Query.compile registry text' = .ok q) ∧
      ∃ report, runQuery registry .default Plan.lateAugust entries text = .ok report ∧
        runQuery registry .default Plan.lateAugust entries text' = .ok report := by
  intro registry front text text' leapDay entries
  let first : Date := ⟨2024, 1, 1, by decide, by decide, by decide, by decide, by decide, by decide⟩
  let last : Date := ⟨2024, 12, 31, by decide, by decide, by decide, by decide, by decide,
    by decide⟩
  let before := ((Token.tokenize false text).map Token.wording).take 9
  let old : List (Token.Content × String) :=
    [(.identifier "year", "year"), (.operator .eq, "="), (.number "2024.0", "2024.0")]
  let new : List (Token.Content × String) :=
    [(.identifier "date", "date"), (.keyword .between, "BETWEEN"),
      (.quoted "2024-01-01", "\"2024-01-01\""), (.keyword .and, "AND"),
      (.quoted "2024-12-31", "\"2024-12-31\"")]
  have cut : (Token.tokenize false text).map Token.wording = before ++ old ++ [(.stop, "")] := by
    decide +kernel
  have cut' : (Token.tokenize false text').map Token.wording = before ++ new ++ [(.stop, "")] := by
    decide +kernel
  have reads : readNumber "2024.0" = .ok (.float 2024.0) := ok_of_toOption (by decide +kernel)
  have accepts : Rule.year.accept (.float 2024.0) = .ok (.int 2024) :=
    ok_of_toOption (by decide +kernel)
  have low : Date.parse "2024-01-01" = .ok first := ok_of_toOption (by decide +kernel)
  have high : Date.parse "2024-12-31" = .ok last := ok_of_toOption (by decide +kernel)
  have spelled : Token.Respelling (old.map Prod.fst) (new.map Prod.fst) :=
    .year reads accepts low high ⟨rfl, rfl, rfl, rfl, rfl, rfl⟩
  let q : Query :=
    { conditions := some
        [⟨"hours", .compare .ge (.int 0)⟩, ⟨"date", .compare .eq (.date leapDay)⟩,
          ⟨"year", .compare .eq (.int 2024)⟩] }
  have compiles : Query.compile registry text = .ok q := ok_of_toOption (by decide +kernel)
  exact runQuery_respelled (.inr ⟨false, rfl⟩) cut cut' spelled ⟨q, compiles⟩ (by decide) .default
    entries

end Worklog
