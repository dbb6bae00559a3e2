import Worklog.Proofs.Date.Months
import Worklog.Proofs.Plan.Overruled

/-!
# Windows of time and what a plan selects

A plan selects what its filter admits and its residual predicates accept. Together these say what
the predicates of the query say, and that the day lies in the window that the plan has taken from
the period (`Plan.selects_iff`), as long as no window can overrule a predicate. From the second
year on every period has a window, so every compiled query has a plan (`Plan.exists_ofQuery`).
-/

namespace Worklog

variable {registry : Registry} {settings : Settings}

/-! ## The days of a period -/

/-- The days from so many months ago until today. -/
def Date.isWithinMonths (n : Nat) (today d : Date) : Bool :=
  match today.addMonths (-n) with
  | .ok start => start ≤ d && d ≤ today
  | .error _ => false

/-- Whether a period, seen from today, takes in a day. -/
def Period.covers (p : Period) (today d : Date) : Bool :=
  match p with
  | .currentYear => d.year == today.year
  | .allTime => true
  | .last6Months => Date.isWithinMonths 6 today d
  | .last12Months => Date.isWithinMonths 12 today d

/-- Whether a window takes in a day. -/
def Window.covers (w : Window) (d : Date) : Bool :=
  w.year.all (d.year == ·) && w.range.all (·.contains d)

/-- Whether the handler of a predicate restricts time. -/
def Query.isTimed (q : Query) (registry : Registry) : Bool :=
  q.predicates.any fun p => (registry.get? p.field).any FieldHandler.temporal

theorem Query.isTimed_iff {q : Query} : q.isTimed registry = true ↔
    ∃ p ∈ q.predicates, ∃ h, registry.get? p.field = some h ∧ h.temporal = true := by
  rw [isTimed, List.any_eq_true]
  simp only [Option.any_eq_true]

theorem Plan.temporal_sortPredicate {s s' : Sorted} {p : Predicate}
    (h : sortPredicate registry s p = .ok s') :
    s'.temporal = (s.temporal || (registry.get? p.field).any FieldHandler.temporal) := by
  obtain ⟨handler, hget, h⟩ := exists_of_bind_ok h
  have found : registry.get? p.field = some handler := by
    unfold Registry.get at hget
    split at hget
    · rename_i h' hf
      cases hget
      exact hf
    · cases hget
  rw [found]
  split at h
  · obtain ⟨draft, -, h⟩ := exists_of_bind_ok h
    cases draft with
    | none => cases h; rfl
    | some _ => cases h; rfl
  · cases h
    rfl

theorem Plan.temporal_sorted {q : Query} {s : Sorted}
    (h : q.predicates.foldlM (sortPredicate registry) {} = .ok s) :
    s.temporal = q.isTimed registry := by
  let timed (seen : List Predicate) : Bool :=
    seen.any fun p => (registry.get? p.field).any FieldHandler.temporal
  -- The flag always tells whether one of the predicates sorted so far restricts time.
  refine foldlM_ok (fun seen (s : Sorted) => s.temporal = timed seen) rfl ?_ h
  intro seen s p s' _ hs hp
  rw [temporal_sortPredicate hp, hs]
  simp only [timed, List.any_append, List.any_cons, List.any_nil, Bool.or_false]

theorem Window.covers_empty (d : Date) : Window.covers {} d = true :=
  rfl

namespace Period

variable {p : Period} {n : Nat} {today : Date}

theorem months_of_rollingMonths (rolling : p.rollingMonths? = some n) : 1 ≤ n ∧ n ≤ 12 := by
  cases p with
  | currentYear => cases rolling
  | allTime => cases rolling
  | last6Months => cases rolling; decide
  | last12Months => cases rolling; decide

theorem covers_of_rollingMonths (rolling : p.rollingMonths? = some n) (d : Date) :
    p.covers today d = Date.isWithinMonths n today d := by
  cases p with
  | currentYear => cases rolling
  | allTime => cases rolling
  | last6Months => cases rolling; rfl
  | last12Months => cases rolling; rfl

/-- From the second year on a rolling period goes back to a day, and ends with the present one. -/
theorem exists_window_of_rollingMonths (rolling : p.rollingMonths? = some n)
    (h : 2 ≤ today.year) : ∃ r : DateRange, p.window today = .ok { range := some r } ∧
      today.addMonths (-n) = .ok r.start ∧ r.stop = today := by
  obtain ⟨low, high⟩ := months_of_rollingMonths rolling
  obtain ⟨start, hs, hle⟩ := Date.exists_addMonths_neg h low high
  refine ⟨⟨start, today, hle⟩, ?_, hs, rfl⟩
  unfold window
  split
  · cases rolling
  · rw [rolling]
    simp only [hs, DateRange.between, dif_pos hle]
    rfl

/-- From the second year on every period has a window, which takes in the period's days. -/
theorem exists_window (p : Period) (h : 2 ≤ today.year) :
    ∃ w, p.window today = .ok w ∧ ∀ d, w.covers d = p.covers today d := by
  cases hn : p.rollingMonths? with
  | some n =>
    obtain ⟨r, hw, start, stop⟩ := exists_window_of_rollingMonths hn h
    refine ⟨_, hw, fun d => ?_⟩
    rw [covers_of_rollingMonths hn, Date.isWithinMonths, start, ← stop]
    exact Bool.true_and _
  | none =>
    cases p with
    | currentYear => exact ⟨{ year := some today.year }, rfl, fun d => Bool.and_true _⟩
    | allTime => exact ⟨{}, rfl, Window.covers_empty⟩
    | last6Months => cases hn
    | last12Months => cases hn

end Period

theorem Plan.exists_windowFor (q : Query) (temporal : Bool) {today : Date} (h : 2 ≤ today.year) :
    ∃ w, Plan.windowFor q temporal today = .ok w ∧
      ∀ d, w.covers d = (temporal || q.periodOrDefault.covers today d) := by
  cases temporal with
  | true => exact ⟨{}, rfl, Window.covers_empty⟩
  | false =>
    obtain ⟨w, hw, hc⟩ := q.periodOrDefault.exists_window h
    exact ⟨w, hw, hc⟩

/-! ## Filters within windows -/

namespace Filter

/-- A filter within a window admits only entries of the window. -/
theorem covers_of_admits_within {f : Filter} {w : Window} {e : Entry}
    (h : (f.within w).admits e = true) : w.covers e.date = true := by
  obtain ⟨year, range⟩ := w
  have hy := admits_iff.1 h .year
  have hd := admits_iff.1 h .date
  rw [Window.covers, Bool.and_eq_true]
  constructor
  · cases year with
    | none => rfl
    | some y =>
      change (Int.ofNat y == (e.date.year : Int)) = true at hy
      change (e.date.year == y) = true
      rw [beq_iff_eq] at hy ⊢
      exact (Int.ofNat.inj hy).symm
  · cases range with
    | none => rfl
    | some r => exact hd

/-- What the filter admits in the window is admitted by the filter within the window. -/
theorem admits_within {f : Filter} {w : Window} {e : Entry} (hf : f.admits e = true)
    (hw : w.covers e.date = true) : (f.within w).admits e = true := by
  rw [admits_iff] at hf ⊢
  rw [Window.covers, Bool.and_eq_true] at hw
  intro r
  by_cases hr : w.replaces r = true
  · obtain ⟨year, range⟩ := w
    cases r with
    | year =>
      cases year with
      | none => cases hr
      | some y =>
        change (Int.ofNat y == (e.date.year : Int)) = true
        have same : (e.date.year == y) = true := hw.1
        rw [beq_iff_eq] at same ⊢
        rw [same]
        rfl
    | date =>
      cases range with
      | none => cases hr
      | some d => exact hw.2
    | _ => cases hr
  · rw [Bool.not_eq_true] at hr
    rw [part_within hr]
    exact hf r

end Filter

/-! ## What a plan selects -/

namespace Plan

/-- Whether the filter admits an entry and the predicates that are left accept it. -/
def selects (plan : Plan) (registry : Registry) (settings : Settings) (e : Entry) : Bool :=
  plan.filter.admits e && plan.residual.all fun p => p.admits registry settings e

variable {text : String} {q : Query} {today : Date} {plan : Plan}

/-- A plan selects the entries of its window that satisfy all predicates. -/
theorem selects_iff (hq : Query.compile registry text = .ok q)
    (hplan : ofQuery registry q today = .ok plan)
    (htime : ∀ h ∈ registry.handlers, h.pushed = true → h.rule = .year ∨ h.rule = .date →
      h.temporal = true) (e : Entry) :
    plan.selects registry settings e = true ↔
      (∀ p ∈ q.predicates, p.admits registry settings e = true) ∧
        plan.window.covers e.date = true := by
  obtain ⟨s, f, hf, -, hfilter, hres⟩ := exists_of_ofQuery hq hplan settings
  rw [selects, Bool.and_eq_true, List.all_eq_true]
  constructor
  · rintro ⟨hadmits, hleft⟩
    refine ⟨fun p hp => ?_, ?_⟩
    · rcases kept_of_temporal hq hplan htime hp with hmem | henf
      · exact hleft p hmem
      · exact henf e hadmits
    · rw [hfilter] at hadmits
      exact Filter.covers_of_admits_within hadmits
  · rintro ⟨hall, hcovers⟩
    refine ⟨?_, fun p hp => hall p ?_⟩
    · rw [hfilter]
      exact Filter.admits_within (hf.admits e hall) hcovers
    · rw [hres] at hp
      exact hf.residual_sub hp

/-- From the second year on a compiled query has a plan, with the window of its period. -/
theorem exists_ofQuery (hq : Query.compile registry text = .ok q) (h : 2 ≤ today.year) :
    ∃ plan, ofQuery registry q today = .ok plan ∧
      ∀ d, plan.window.covers d = (q.isTimed registry || q.periodOrDefault.covers today d) := by
  obtain ⟨s, hs, f, hf⟩ := exists_sorted (fun p hp => (readBy_of_compile hq p hp).1) .default
  obtain ⟨w, hw, hc⟩ := exists_windowFor q s.temporal h
  rw [ofQuery_eq hs hf today, hw]
  exact ⟨_, rfl, temporal_sorted hs ▸ hc⟩

end Plan

end Worklog
