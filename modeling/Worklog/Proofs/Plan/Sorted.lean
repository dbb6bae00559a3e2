import Worklog.Plan
import Worklog.Proofs.Chain
import Worklog.Proofs.Field.Pushdown
import Worklog.Proofs.Query.Interpretation

/-!
# Sorting predicates

What the predicates seen so far have become (`Plan.Sorted.Reflects`): the draft is that of a
filter; a predicate that is not left for later is enforced by the filter's part of its rule; and
the filter admits all that the predicates admit together. Every predicate that a handler has read
keeps this true (`exists_sortPredicate`), so it holds of all of them (`exists_sorted`), and the
plan is the filter within the window of the period, with the predicates left (`ofQuery_eq`).
-/

namespace Worklog

variable {registry : Registry} {settings : Settings}

/-! ## Windows -/

/-- The filter with the parts of a window in the place of its own. -/
def Filter.within (f : Filter) (w : Window) : Filter :=
  { f with
    year := (w.year.map Int.ofNat).or f.year
    range := w.range.or f.range }

/-- Whether a window sets the part of a rule. -/
def Window.replaces (w : Window) : Rule → Bool
  | .year => w.year.isSome
  | .date => w.range.isSome
  | _ => false

theorem Filter.part_within {f : Filter} {w : Window} {r : Rule} (h : w.replaces r = false) :
    (f.within w).part r = f.part r := by
  obtain ⟨year, range⟩ := w
  cases r with
  | year =>
    cases year with
    | none => rfl
    | some y => cases h
  | date =>
    cases range with
    | none => rfl
    | some d => cases h
  | _ => rfl

namespace Plan

theorem restrict_ofFilter (f : Filter) (w : Window) :
    restrict (.ofFilter f) w = .ofFilter (f.within w) := by
  obtain ⟨year, range⟩ := w
  cases year <;> rfl

/-! ## The invariant -/

/-- What the predicates seen so far have become. -/
structure Sorted.Reflects (registry : Registry) (settings : Settings) (seen : List Predicate)
    (s : Sorted) (f : Filter) : Prop where
  draft_eq : s.draft = .ofFilter f
  hasMonth : f.HasMonth
  residual_sub : s.residual ⊆ seen
  temporal_iff : s.temporal = true ↔
    ∃ p ∈ seen, ∃ h, registry.get? p.field = some h ∧ h.temporal = true
  enforced : ∀ p ∈ seen, p ∉ s.residual → ∃ h, registry.get? p.field = some h ∧ h.pushed = true ∧
    ∀ e, f.part h.rule e = true → p.admits registry settings e = true
  admits : ∀ e, (∀ p ∈ seen, p.admits registry settings e = true) → f.admits e = true

theorem reflects_nil : Sorted.Reflects registry settings [] {} {} where
  draft_eq := rfl
  hasMonth := nofun
  residual_sub := List.Subset.refl _
  temporal_iff := ⟨nofun, nofun⟩
  enforced := nofun
  admits := fun _ _ => rfl

section Step

variable {seen : List Predicate} {s : Sorted} {f : Filter} {p : Predicate} {h : FieldHandler}

theorem temporal_iff_append (hs : s.Reflects registry settings seen f)
    (hp : p.ReadBy registry h) : (s.temporal || h.temporal) = true ↔
      ∃ p' ∈ seen ++ [p], ∃ h, registry.get? p'.field = some h ∧ h.temporal = true := by
  rw [Bool.or_eq_true, hs.temporal_iff]
  constructor
  · rintro (⟨p', hp', hh⟩ | ht)
    · exact ⟨p', List.mem_append_left _ hp', hh⟩
    · exact ⟨p, by simp, h, hp.found, ht⟩
  · rintro ⟨p', hp', h', hf, ht⟩
    rcases List.mem_append.1 hp' with hp' | hp'
    · exact .inl ⟨p', hp', h', hf, ht⟩
    · rw [List.mem_singleton.1 hp', hp.found] at hf
      cases hf
      exact .inr ht

/-- A predicate that is left for later. -/
theorem Sorted.Reflects.leave (hs : s.Reflects registry settings seen f)
    (hp : p.ReadBy registry h) :
    Sorted.Reflects registry settings (seen ++ [p])
      { s with residual := s.residual ++ [p], temporal := s.temporal || h.temporal } f where
  draft_eq := hs.draft_eq
  hasMonth := hs.hasMonth
  residual_sub := by
    intro p' hp'
    rcases List.mem_append.1 hp' with hp' | hp'
    · exact List.mem_append_left _ (hs.residual_sub hp')
    · exact List.mem_append_right _ hp'
  temporal_iff := temporal_iff_append hs hp
  enforced := by
    intro p' hp' hn
    rw [List.mem_append, not_or] at hn
    rcases List.mem_append.1 hp' with hp' | hp'
    · exact hs.enforced p' hp' hn.1
    · exact absurd hp' hn.2
  admits := fun e he => hs.admits e fun p' hp' => he p' (List.mem_append_left _ hp')

/-- A predicate that is pushed down. -/
theorem Sorted.Reflects.push (hs : s.Reflects registry settings seen f)
    (hp : p.ReadBy registry h) (hpush : h.pushed = true) {f' : Filter}
    (hn : f.Narrowed f' h.rule (h.rule.admits p.test settings)) :
    Sorted.Reflects registry settings (seen ++ [p])
      { s with draft := .ofFilter f', temporal := s.temporal || h.temporal } f' where
  draft_eq := rfl
  hasMonth := hn.hasMonth hs.hasMonth
  residual_sub := fun p' hp' => List.mem_append_left _ (hs.residual_sub hp')
  temporal_iff := temporal_iff_append hs hp
  enforced := by
    intro p' hp' hr
    rcases List.mem_append.1 hp' with hp' | hp'
    · -- The part that enforced it has become narrower, or has not been touched.
      obtain ⟨h', hf, hpu, he⟩ := hs.enforced p' hp' hr
      refine ⟨h', hf, hpu, fun e hpart => he e ?_⟩
      by_cases hrule : h'.rule = h.rule
      · rw [hrule] at hpart ⊢
        exact hn.part_mono e hpart
      · rwa [← hn.part_of_ne h'.rule hrule]
    · rw [List.mem_singleton.1 hp']
      refine ⟨h, hp.found, hpush, fun e hpart => ?_⟩
      rw [Predicate.admits_of_get? hp.found, ← hn.part_eq e]
      exact hpart
  admits := by
    intro e he
    rw [hn.admits_iff e]
    refine ⟨hs.admits e fun p' hp' => he p' (List.mem_append_left _ hp'), ?_⟩
    rw [← Predicate.admits_of_get? hp.found]
    exact he p (by simp)

/-- Sorting a predicate that a handler has read gives a result and keeps the invariant. -/
theorem exists_sortPredicate (hs : s.Reflects registry settings seen f)
    (hp : p.ReadBy registry h) : ∃ s', sortPredicate registry s p = .ok s' ∧
      ∃ f', s'.Reflects registry settings (seen ++ [p]) f' := by
  have hget : registry.get p.field = .ok h := by rw [Registry.get, hp.found]
  unfold sortPredicate
  rw [hget]
  by_cases hpush : h.pushed = true
  · obtain ⟨o, ho, hn⟩ :=
      Rule.push_ofFilter settings f (h.pushed_pushable hpush) hp.suits
    rw [← hs.draft_eq] at ho
    simp only [bind, Except.bind, hpush, if_true, ho]
    cases o with
    | none => exact ⟨_, rfl, f, hs.leave hp⟩
    | some f' => exact ⟨_, rfl, f', hs.push hp hpush (hn f' rfl)⟩
  · simp only [bind, Except.bind, hpush]
    exact ⟨_, rfl, f, hs.leave hp⟩

end Step

/-- Predicates that handlers have read can be sorted, and the invariant holds of all of them. -/
theorem exists_sorted {ps : List Predicate} (hps : ∀ p ∈ ps, ∃ h, p.ReadBy registry h)
    (settings : Settings) : ∃ s, ps.foldlM (sortPredicate registry) {} = .ok s ∧
      ∃ f, s.Reflects registry settings ps f := by
  refine exists_foldlM_ok (fun seen (s : Sorted) => ∃ f, s.Reflects registry settings seen f)
    ⟨{}, reflects_nil⟩ ?_
  intro seen s p hmem hs
  obtain ⟨f, hf⟩ := hs
  obtain ⟨h, hp⟩ := hps p hmem
  exact exists_sortPredicate hf hp

theorem trendLength_and_today_ofQuery {q : Query} {today : Date} {plan : Plan}
    (h : ofQuery registry q today = .ok plan) :
    plan.trendLength = q.trendLength? ∧ plan.today = today := by
  obtain ⟨s, -, h⟩ := exists_of_bind_ok h
  obtain ⟨window, -, h⟩ := exists_of_bind_ok h
  obtain ⟨filter, -, h⟩ := exists_of_bind_ok h
  cases h
  exact ⟨rfl, rfl⟩

/-- The plan of a query is the filter of what was sorted, within the window of the query. -/
theorem ofQuery_eq {q : Query} {s : Sorted} {f : Filter}
    (hs : q.predicates.foldlM (sortPredicate registry) {} = .ok s)
    (hf : s.Reflects registry settings q.predicates f) (today : Date) :
    ofQuery registry q today = (windowFor q s.temporal today).map fun window =>
      { filter := f.within window
        residual := s.residual
        window
        trendLength := q.trendLength?
        today } := by
  unfold ofQuery
  rw [hs]
  simp only [bind, Except.bind]
  cases windowFor q s.temporal today with
  | error failure => rfl
  | ok w =>
    have hm : (f.within w).HasMonth := hf.hasMonth
    simp only [hf.draft_eq, restrict_ofFilter, FilterDraft.finish_ofFilter hm]
    rfl

end Plan

end Worklog
