import Worklog.Proofs.Plan.Sorted

/-!
# Predicates that the period overrules

A plan keeps a predicate if it leaves it to be judged in memory, or if its filter enforces it. That
can fail in one way only: no predicate restricts time by its handler's account, so the period adds
its window, and the window takes the place of the year or the range of dates that the predicate
had set (`Plan.Overrules`). A predicate is kept exactly when that does not happen
(`Plan.kept_iff`); where the handlers that are pushed down restrict time, it never does
(`Plan.kept_of_temporal`).
-/

namespace Worklog

variable {registry : Registry} {settings : Settings}

/-! ## Days -/

/-- Every entry that the filter admits satisfies the predicate. -/
def Filter.Enforces (f : Filter) (registry : Registry) (settings : Settings) (p : Predicate) :
    Prop :=
  ∀ e, f.admits e = true → p.admits registry settings e = true

/-- Whether the filter can admit entries of a day. -/
def Filter.admitsDay (f : Filter) (d : Date) : Bool :=
  f.year.all (· == (d.year : Int)) && f.month.all (· == (d.month : Int)) &&
    f.range.all (·.contains d)

/-- Whether a test of the rule holds on a day, as far as the rule looks at years or dates. -/
def Rule.holdsOn (r : Rule) (t : Test Value) (d : Date) : Bool :=
  match r with
  | .year => t.value.same (.int d.year)
  | .date =>
    match t.days with
    | .valid range => range.contains d
    | .invalid _ => false
  | _ => true

/-- An entry of a day that booked no time on a project. -/
def Entry.blank (d : Date) (project : Option String) : Entry :=
  { date := d
    hours := 0.0
    rate := none
    project
    client := none
    category := none
    notes := none
    hours_nonneg := by decide +kernel }

theorem Text.mentions_self {s : String} (h : s.isEmpty = false) :
    Text.mentions s [some s] = true := by
  simp only [Text.mentions, List.any_cons, List.any_nil, Bool.or_false, h, Bool.not_false,
    Bool.true_and]
  exact Text.occursIn_iff.2 (List.infix_refl _)

namespace Filter

theorem admitsDay_of_admits {f : Filter} {e : Entry} (h : f.admits e = true) :
    f.admitsDay e.date = true := by
  simp only [admits, admitsDay, Bool.and_eq_true] at h ⊢
  exact ⟨h.1.1, h.2⟩

/-- On a day on which a filter can admit entries there is one that it admits. -/
theorem admits_blank {f : Filter} {d : Date} (h : f.admitsDay d = true) :
    f.admits (.blank d f.project) = true := by
  simp only [admits, admitsDay, Bool.and_eq_true] at h ⊢
  refine ⟨⟨h.1, ?_⟩, h.2⟩
  cases f.project with
  | none => rfl
  | some s =>
    change (s.isEmpty || Text.mentions s [some s]) = true
    cases hs : s.isEmpty with
    | true => rfl
    | false => rw [Text.mentions_self hs, Bool.false_or]

end Filter

/-- What a window can replace is a test of days. -/
theorem Rule.admits_eq_holdsOn {w : Window} {r : Rule} (hr : w.replaces r = true) {t : Test Value}
    (ht : t.Suits r) (e : Entry) : r.admits t settings e = r.holdsOn t e.date := by
  cases r with
  | year => rfl
  | date =>
    obtain ⟨range, hd, hv, hu⟩ := Rule.days_of_suits ht
    rw [Rule.admits_date hv hu, holdsOn, hd]
  | _ => cases hr

namespace Plan

/-- The window of the period takes the place of a predicate, and lets a day in that it excludes. -/
structure Overrules (plan : Plan) (registry : Registry) (q : Query) (p : Predicate) : Prop where
  not_left : p ∉ plan.residual
  untimed : ∀ p' ∈ q.predicates, ∀ h, registry.get? p'.field = some h → h.temporal = false
  replaced : ∃ h, registry.get? p.field = some h ∧ h.pushed = true ∧
    plan.window.replaces h.rule = true ∧
    ∃ d, plan.filter.admitsDay d = true ∧ h.rule.holdsOn p.test d = false

theorem not_temporal_of_replaces {q : Query} {temporal : Bool} {today : Date} {w : Window}
    (hw : windowFor q temporal today = .ok w) {r : Rule} (hr : w.replaces r = true) :
    temporal = false := by
  cases temporal with
  | false => rfl
  | true =>
    cases hw
    cases r <;> cases hr

section Kept

variable {text : String} {q : Query} {today : Date} {plan : Plan}

/-- What is known of a plan of a compiled text. -/
theorem exists_of_ofQuery (hq : Query.compile registry text = .ok q)
    (hplan : ofQuery registry q today = .ok plan) (settings : Settings) :
    ∃ s f, Sorted.Reflects registry settings q.predicates s f ∧
      windowFor q s.temporal today = .ok plan.window ∧ plan.filter = f.within plan.window ∧
      plan.residual = s.residual := by
  obtain ⟨s, hs, f, hf⟩ := exists_sorted (fun p hp => (readBy_of_compile hq p hp).1) settings
  rw [ofQuery_eq hs hf today] at hplan
  cases hw : windowFor q s.temporal today with
  | error failure =>
    rw [hw] at hplan
    cases hplan
  | ok w =>
    rw [hw] at hplan
    cases hplan
    exact ⟨s, f, hf, hw, rfl, rfl⟩

theorem not_overrules_of_kept (hq : Query.compile registry text = .ok q) {p : Predicate}
    (hp : p ∈ q.predicates) (h : p ∈ plan.residual ∨ plan.filter.Enforces registry settings p) :
    ¬ plan.Overrules registry q p := by
  rintro ⟨hn, -, g, hfound, -, hrep, d, hday, hout⟩
  rcases h with hleft | henf
  · exact hn hleft
  · obtain ⟨⟨h, hread⟩, -⟩ := readBy_of_compile hq p hp
    have same : h = g := Option.some.inj (hread.found.symm.trans hfound)
    subst same
    -- The filter lets an entry of that day in, which the predicate does not admit.
    have hin := henf _ (Filter.admits_blank hday)
    rw [Predicate.admits_of_get? hfound, Rule.admits_eq_holdsOn hrep hread.suits] at hin
    change h.rule.holdsOn p.test d = true at hin
    rw [hout] at hin
    cases hin

theorem kept_of_not_overrules (hq : Query.compile registry text = .ok q)
    (hplan : ofQuery registry q today = .ok plan) {p : Predicate} (hp : p ∈ q.predicates)
    (hno : ¬ plan.Overrules registry q p) :
    p ∈ plan.residual ∨ plan.filter.Enforces registry settings p := by
  obtain ⟨s, f, hf, hw, hfilter, hres⟩ := exists_of_ofQuery hq hplan settings
  obtain ⟨⟨h, hread⟩, -⟩ := readBy_of_compile hq p hp
  by_cases hleft : p ∈ plan.residual
  · exact .inl hleft
  obtain ⟨g, hfound, hpushed, hpart⟩ := hf.enforced p hp (hres ▸ hleft)
  have same : g = h := Option.some.inj (hfound.symm.trans hread.found)
  subst same
  refine .inr fun e he => ?_
  -- Only where the window has replaced the part can the filter have come to admit too much.
  by_cases hrep : plan.window.replaces g.rule = true
  · have untimed : ∀ p' ∈ q.predicates, ∀ h, registry.get? p'.field = some h →
        h.temporal = false := by
      intro p' hp' h hh
      have htemp := not_temporal_of_replaces hw hrep
      rw [← Bool.not_eq_true, hf.temporal_iff] at htemp
      exact Bool.eq_false_iff.2 fun ht => htemp ⟨p', hp', h, hh, ht⟩
    by_cases hin : p.admits registry settings e = true
    · exact hin
    · rw [Bool.not_eq_true, Predicate.admits_of_get? hfound,
        Rule.admits_eq_holdsOn hrep hread.suits] at hin
      have day := Filter.admitsDay_of_admits he
      exact absurd ⟨hleft, untimed, g, hfound, hpushed, hrep, e.date, day, hin⟩ hno
  · rw [Bool.not_eq_true] at hrep
    refine hpart e ?_
    rw [← Filter.part_within hrep, ← hfilter]
    exact Filter.admits_iff.1 he g.rule

/-- A predicate of a compiled text is kept exactly when the period does not overrule it. -/
theorem kept_iff (hq : Query.compile registry text = .ok q)
    (hplan : ofQuery registry q today = .ok plan) (settings : Settings) {p : Predicate}
    (hp : p ∈ q.predicates) :
    (p ∈ plan.residual ∨ plan.filter.Enforces registry settings p) ↔
      ¬ plan.Overrules registry q p :=
  ⟨not_overrules_of_kept hq hp, kept_of_not_overrules hq hplan hp⟩

/-- Where the handlers of years and dates that are pushed down restrict time, all is kept. -/
theorem kept_of_temporal (hq : Query.compile registry text = .ok q)
    (hplan : ofQuery registry q today = .ok plan)
    (htime : ∀ h ∈ registry.handlers, h.pushed = true → h.rule = .year ∨ h.rule = .date →
      h.temporal = true) {p : Predicate} (hp : p ∈ q.predicates) :
    p ∈ plan.residual ∨ plan.filter.Enforces registry settings p := by
  refine kept_of_not_overrules hq hplan hp ?_
  rintro ⟨-, untimed, h, hfound, hpushed, hrep, -⟩
  have rule : h.rule = .year ∨ h.rule = .date := by
    cases hr : h.rule with
    | year => exact .inl rfl
    | date => exact .inr rfl
    | _ => rw [hr] at hrep; cases hrep
  have temporal := htime h (Registry.mem_of_get? hfound) hpushed rule
  rw [untimed p hp h hfound] at temporal
  cases temporal

end Kept

section Examples

/-- The last day of August 2024. -/
def lateAugust : Date :=
  ⟨2024, 8, 31, by decide, by decide, by decide, by decide, by decide, by decide⟩

/-- With the language's own fields, a condition on the year is kept. -/
theorem kept_year :
    ∃ q plan p, Query.compile .standard "WHERE year = 2020" = .ok q ∧
      ofQuery .standard q lateAugust = .ok plan ∧ p ∈ q.predicates ∧
      (p ∈ plan.residual ∨ plan.filter.Enforces .standard .default p) := by
  let p : Predicate := ⟨"year", .compare .eq (.int 2020)⟩
  let q : Query := { conditions := some [p] }
  let plan : Plan := ⟨{ year := some 2020 }, [], {}, none, lateAugust⟩
  have hq : Query.compile .standard "WHERE year = 2020" = .ok q :=
    ok_of_toOption (by decide +kernel)
  have hplan : ofQuery .standard q lateAugust = .ok plan := ok_of_toOption (by decide +kernel)
  have hp : p ∈ q.predicates := List.mem_singleton_self p
  refine ⟨q, plan, p, hq, hplan, hp, (kept_iff hq hplan .default hp).2 ?_⟩
  rintro ⟨-, untimed, -⟩
  have found : Registry.standard.get? p.field = some (.standard .year) := by decide +kernel
  exact absurd (untimed p hp _ found) (by decide)

/-- A year whose handler does not restrict time is overruled by the current year. -/
theorem exists_lost_year :
    let registry := (Registry.standard.edit (.register .year { temporal := some false } true)).1
    ∃ q plan p e, Query.compile registry "WHERE year = 2020" = .ok q ∧
      ofQuery registry q lateAugust = .ok plan ∧ p ∈ q.predicates ∧ p ∉ plan.residual ∧
      plan.filter.admits e = true ∧ p.admits registry .default e = false := by
  intro registry
  let p : Predicate := ⟨"year", .compare .eq (.int 2020)⟩
  let q : Query := { conditions := some [p] }
  let plan : Plan := ⟨{ year := some 2024 }, [], { year := some 2024 }, none, lateAugust⟩
  refine ⟨q, plan, p, .blank lateAugust none, ?_, ?_, List.mem_singleton_self p, nofun, ?_, ?_⟩
  · exact ok_of_toOption (by decide +kernel)
  · exact ok_of_toOption (by decide +kernel)
  · decide +kernel
  · decide +kernel

end Examples

end Plan

end Worklog
