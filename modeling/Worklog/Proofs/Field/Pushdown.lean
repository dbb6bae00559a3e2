import Worklog.Field.Pushdown
import Worklog.Proofs.Field.Matcher

/-!
# Pushing tests down keeps their meaning

A filter has one part for each rule whose tests can be pushed down (`Filter.part`), and a draft
that was gathered from suitable tests is the draft of a filter (`FilterDraft.ofFilter`). Pushing a
test down either conflicts or gives the draft of a filter whose part of the rule is the test and
whose other parts are unchanged (`Rule.push_ofFilter`). Such a draft always passes the check of
filters (`FilterDraft.finish_ofFilter`).
-/

namespace Worklog

variable {settings : Settings}

/-! ## The parts of a filter -/

namespace Filter

/-- Whether the part of a filter that belongs to a rule holds of an entry. -/
def part (f : Filter) (r : Rule) (e : Entry) : Bool :=
  match r with
  | .year => f.year.all (· == (e.date.year : Int))
  | .month => f.month.all (· == (e.date.month : Int))
  | .project => f.project.all fun s => s.isEmpty || Text.mentions s [e.project]
  | .date => f.range.all (·.contains e.date)
  | _ => true

theorem admits_iff {f : Filter} {e : Entry} : f.admits e = true ↔ ∀ r, f.part r e = true := by
  simp only [admits, Bool.and_eq_true]
  constructor
  · rintro ⟨⟨⟨hy, hm⟩, hp⟩, hd⟩ r
    cases r with
    | year => exact hy
    | month => exact hm
    | project => exact hp
    | date => exact hd
    | _ => rfl
  · intro h
    exact ⟨⟨⟨h .year, h .month⟩, h .project⟩, h .date⟩

/-- The month of a filter, if there is one, is a month of the year. -/
def HasMonth (f : Filter) : Prop :=
  ∀ n ∈ f.month, 1 ≤ n ∧ n ≤ 12

/-- A filter whose part of a rule has become a given test, with all else as it was. -/
structure Narrowed (f f' : Filter) (r : Rule) (admitted : Entry → Bool) : Prop where
  part_eq : ∀ e, f'.part r e = admitted e
  part_of_ne : ∀ r', r' ≠ r → f'.part r' = f.part r'
  part_mono : ∀ e, f'.part r e = true → f.part r e = true
  hasMonth : f.HasMonth → f'.HasMonth

/-- Narrowing a filter adds the test to what it asks for. -/
theorem Narrowed.admits_iff {f f' : Filter} {r : Rule} {admitted : Entry → Bool}
    (h : Narrowed f f' r admitted) (e : Entry) :
    f'.admits e = true ↔ f.admits e = true ∧ admitted e = true := by
  rw [Filter.admits_iff, Filter.admits_iff]
  constructor
  · intro he
    refine ⟨fun r' => ?_, h.part_eq e ▸ he r⟩
    by_cases hr : r' = r
    · exact hr ▸ h.part_mono e (he r)
    · rw [← h.part_of_ne r' hr]
      exact he r'
  · rintro ⟨hf, ha⟩ r'
    by_cases hr : r' = r
    · rw [hr, h.part_eq e]
      exact ha
    · rw [h.part_of_ne r' hr]
      exact hf r'

end Filter

/-! ## Drafts of filters -/

namespace FilterDraft

/-- The draft that gathers the parts of a filter. -/
def ofFilter (f : Filter) : FilterDraft :=
  { year := f.year.map .int
    month := f.month.map .int
    project := f.project.map .text
    range := f.range }

theorem checkMonth_of_hasMonth {n : Int} (h : 1 ≤ n ∧ n ≤ 12) : Filter.checkMonth n = .valid n := by
  rw [Filter.checkMonth, if_neg (by omega), if_neg (by omega)]

/-- The draft of a filter passes the check of filters. -/
theorem finish_ofFilter {f : Filter} (h : f.HasMonth) : (ofFilter f).finish = .valid f := by
  obtain ⟨year, month, project, range⟩ := f
  have hm : checkPart "month" (month.map Value.int)
      (fun v => v.asInteger.andThen Filter.checkMonth) = .valid month := by
    cases month with
    | none => rfl
    | some n =>
      simp only [Option.map_some, checkPart, Value.asInteger, Checked.andThen,
        checkMonth_of_hasMonth (h n rfl)]
      rfl
  have hy : checkPart "year" (year.map Value.int) Value.asInteger = .valid year := by
    cases year <;> rfl
  have hp : checkPart "project_filter" (project.map Value.text) Value.asText = .valid project := by
    cases project <;> rfl
  simp only [finish, ofFilter, hy, hm, hp]
  rfl

end FilterDraft

/-! ## Pushing one test down -/

/-- Whatever a part can be set to is at least as strict as what it holds. -/
theorem all_of_canSet {α β : Type} {same : β → β → Bool} {g : α → β}
    (inj : ∀ a b, same (g a) (g b) = true → a = b) {old : Option α} {new : α}
    (hs : canSet same (old.map g) (g new) = true) {holds : α → Bool} (h : holds new = true) :
    old.all holds = true := by
  cases old with
  | none => rfl
  | some a =>
    have eq : a = new := inj a new hs
    rw [eq]
    exact h

namespace Rule

open FilterDraft (ofFilter)

variable {f : Filter} {t : Test Value}

/-- It is enough to say which part is set, when, and that setting it narrows the filter. -/
theorem push_of_narrowed {r : Rule} {f₁ : Filter} {fits : Bool}
    (hp : r.push t (ofFilter f) = .ok (if fits then some (ofFilter f₁) else none))
    (hn : fits = true → f.Narrowed f₁ r (r.admits t settings)) :
    ∃ o : Option Filter, r.push t (ofFilter f) = .ok (o.map ofFilter) ∧
      ∀ f' ∈ o, f.Narrowed f' r (r.admits t settings) := by
  cases fits with
  | false => exact ⟨none, hp, nofun⟩
  | true =>
    refine ⟨some f₁, hp, fun f' hf => ?_⟩
    cases hf
    exact hn rfl

theorem narrowed_year {n : Int} (hv : t.value = .int n)
    (hs : canSet Value.same (f.year.map .int) (.int n) = true) :
    f.Narrowed { f with year := some n } .year (Rule.year.admits t settings) where
  part_eq e := (admits_year hv e).symm
  part_of_ne := by
    intro r' hr
    cases r' with
    | year => exact absurd rfl hr
    | _ => rfl
  part_mono _ he := all_of_canSet (fun _ _ => Value.same_int_iff.1) hs he
  hasMonth h := h

theorem narrowed_month {n : Int} (hb : 1 ≤ n ∧ n ≤ 12) (hv : t.value = .int n)
    (hs : canSet Value.same (f.month.map .int) (.int n) = true) :
    f.Narrowed { f with month := some n } .month (Rule.month.admits t settings) where
  part_eq e := (admits_month hv e).symm
  part_of_ne := by
    intro r' hr
    cases r' with
    | month => exact absurd rfl hr
    | _ => rfl
  part_mono _ he := all_of_canSet (fun _ _ => Value.same_int_iff.1) hs he
  hasMonth := by
    intro _ m hm
    cases hm
    exact hb

theorem narrowed_project {s : String} (hne : s ≠ "") (hv : t.value = .text s)
    (hs : canSet Value.same (f.project.map .text) (.text s) = true) :
    f.Narrowed { f with project := some s } .project (Rule.project.admits t settings) where
  part_eq := by
    intro e
    have hem : s.isEmpty = false := by rwa [Bool.eq_false_iff, ne_eq, String.isEmpty_iff]
    change (s.isEmpty || Text.mentions s [e.project]) = _
    rw [admits_project hv, hem, Bool.false_or]
  part_of_ne := by
    intro r' hr
    cases r' with
    | project => exact absurd rfl hr
    | _ => rfl
  part_mono _ he := all_of_canSet (fun _ _ => Value.same_text_iff.1) hs he
  hasMonth h := h

theorem narrowed_date {range : DateRange} (hv : t.value = .date range.start)
    (hu : t.upper?.getD t.value = .date range.stop)
    (hs : canSet (· == ·) f.range range = true) :
    f.Narrowed { f with range := some range } .date (Rule.date.admits t settings) where
  part_eq e := (admits_date hv hu e).symm
  part_of_ne := by
    intro r' hr
    cases r' with
    | date => exact absurd rfl hr
    | _ => rfl
  part_mono := by
    intro e he
    rw [← Option.map_id_apply (x := f.range)] at hs
    exact all_of_canSet (fun _ _ => beq_iff_eq.1) hs he
  hasMonth h := h

/-- A test of days asks for a range, be it of one day. -/
theorem days_of_suits (ht : t.Suits .date) : ∃ range : DateRange, t.days = .valid range ∧
    t.value = .date range.start ∧ t.upper?.getD t.value = .date range.stop := by
  obtain ⟨start, stop, hle, hv, hu⟩ := ht.days
  refine ⟨⟨start, stop, hle⟩, ?_, hv, hu⟩
  rw [Test.days, hu, hv]
  change DateRange.between start stop = _
  rw [DateRange.between, dif_pos hle]

variable (f settings) in
/-- Pushing down a suitable test conflicts with a draft or narrows its filter by the test. -/
theorem push_ofFilter {r : Rule} (hr : r.isPushable = true) (ht : t.Suits r) :
    ∃ o : Option Filter, r.push t (ofFilter f) = .ok (o.map ofFilter) ∧
      ∀ f' ∈ o, f.Narrowed f' r (r.admits t settings) := by
  cases r with
  | year =>
    obtain ⟨n, -, hv⟩ := ht.value
    refine push_of_narrowed ?_ (narrowed_year hv)
    rw [push, hv]
    rfl
  | month =>
    obtain ⟨n, hb, hv⟩ := ht.value
    refine push_of_narrowed ?_ (narrowed_month hb hv)
    rw [push, hv]
    rfl
  | project =>
    obtain ⟨s, hne, hv⟩ := ht.value
    refine push_of_narrowed ?_ (narrowed_project hne hv)
    rw [push, hv]
    rfl
  | date =>
    obtain ⟨range, hd, hv, hu⟩ := days_of_suits ht
    refine push_of_narrowed ?_ (narrowed_date hv hu)
    rw [push, hd]
    rfl
  | _ => cases hr

end Rule

end Worklog
