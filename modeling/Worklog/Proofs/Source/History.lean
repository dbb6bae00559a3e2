import Mathlib.Data.List.DropRight
import Worklog.Proofs.Source.Key
import Worklog.Source

/-!
# What a source answers

The answers of a source, told from the steps it has been through and not from what it keeps. An
answer is a snapshot: the admitted ones of the entries that were present when the filter was first
asked since the kept answers were last cleared (`History.atFill`). The invariant `Reflects` says
which answers are kept and how many lookups there have been; every step keeps it
(`Reflects.after`), so every run of steps does (`reflects_run`). That kept answers of different
filters are never mixed up is `Filter.cacheKey_injective`.
-/

namespace Worklog.Source

/-- A step of a source. -/
inductive Step where
  | query (f : Filter)
  | add (e : Entry)
  | clear

namespace Step

/-- Whether the step clears the kept answers. -/
def isClear : Step → Bool
  | .clear => true
  | _ => false

/-- Whether the step asks a filter. -/
def asks (f : Filter) : Step → Bool
  | .query g => g = f
  | _ => false

/-- The entry that the step adds. -/
def added? : Step → Option Entry
  | .add e => some e
  | _ => none

end Step

/-- The source after a step. -/
def after (s : Source) : Step → Source
  | .query f => (s.query f).2
  | .add e => s.add e
  | .clear => s.clear

/-- The source after steps. -/
def run (s : Source) (steps : List Step) : Source :=
  steps.foldl after s

/-! ## Histories -/

namespace History

/-- The entries that are present after steps. -/
def present (entries : List Entry) (steps : List Step) : List Entry :=
  entries ++ steps.filterMap Step.added?

/-- The steps since the kept answers were last cleared. -/
def sinceClear (steps : List Step) : List Step :=
  steps.rtakeWhile fun s => !s.isClear

/-- The steps up to that point. -/
def untilClear (steps : List Step) : List Step :=
  steps.rdropWhile fun s => !s.isClear

/-- Whether a filter has been asked since the kept answers were last cleared. -/
def asked (f : Filter) (steps : List Step) : Bool :=
  (sinceClear steps).any (Step.asks f)

/-- The steps before the filter was first asked since then, or all if it has not been asked. -/
def atFill (f : Filter) (steps : List Step) : List Step :=
  untilClear steps ++ (sinceClear steps).takeWhile fun s => !s.asks f

/-- The entries that the filter admits among those that were present at that point. -/
def snapshot (entries : List Entry) (f : Filter) (steps : List Step) : List Entry :=
  (present entries (atFill f steps)).filter f.admits

/-- Whether the step asks a filter that has not been asked since the last clearing. -/
def isFresh (before : List Step) : Step → Bool
  | .query f => !asked f before
  | _ => false

/-- How many of the steps asked a filter that had not been asked since the last clearing. -/
def freshQueries (steps : List Step) : Nat :=
  (List.range steps.length).countP fun i => steps[i]?.any (isFresh (steps.take i))

section Append

variable {f : Filter} {steps : List Step} {s : Step}

theorem sinceClear_append (h : s.isClear = false) :
    sinceClear (steps ++ [s]) = sinceClear steps ++ [s] :=
  List.rtakeWhile_concat_pos _ _ _ (by simp [h])

theorem untilClear_append (h : s.isClear = false) :
    untilClear (steps ++ [s]) = untilClear steps :=
  List.rdropWhile_concat_pos _ _ _ (by simp [h])

theorem asked_append_clear : asked f (steps ++ [.clear]) = false := by
  rw [asked, sinceClear, List.rtakeWhile_concat_neg _ _ _ (by simp [Step.isClear])]
  rfl

theorem asked_append (h : s.isClear = false) :
    asked f (steps ++ [s]) = (asked f steps || s.asks f) := by
  rw [asked, sinceClear_append h, List.any_append, asked]
  simp

theorem asks_of_not_asked (h : asked f steps = false) :
    ∀ s ∈ sinceClear steps, (!s.asks f) = true := by
  intro s hs
  rw [asked, List.any_eq_false] at h
  simpa using h s hs

theorem atFill_of_not_asked (h : asked f steps = false) : atFill f steps = steps := by
  rw [atFill, List.takeWhile_eq_self_iff.2 (asks_of_not_asked h)]
  exact List.rdropWhile_append_rtakeWhile ..

/-- A filter that has not been asked is first asked by the next step that asks it. -/
theorem atFill_append_query (h : asked f steps = false) :
    atFill f (steps ++ [.query f]) = steps := by
  rw [atFill, untilClear_append rfl, sinceClear_append rfl,
    List.takeWhile_append_of_pos (asks_of_not_asked h),
    List.takeWhile_cons_of_neg (by simp [Step.asks]), List.append_nil]
  exact List.rdropWhile_append_rtakeWhile ..

theorem takeWhile_append_of_any {p : Step → Bool} {xs : List Step}
    (h : (xs.any fun x => !p x) = true) (ys : List Step) :
    (xs ++ ys).takeWhile p = xs.takeWhile p := by
  rw [List.takeWhile_append, if_neg]
  intro hl
  have whole : xs.takeWhile p = xs := (List.takeWhile_prefix p).eq_of_length hl
  rw [List.takeWhile_eq_self_iff] at whole
  obtain ⟨x, hx, hp⟩ := List.any_eq_true.1 h
  rw [whole x hx] at hp
  cases hp

theorem atFill_append_of_asked (hs : s.isClear = false) (h : asked f steps = true) :
    atFill f (steps ++ [s]) = atFill f steps := by
  rw [atFill, untilClear_append hs, sinceClear_append hs,
    takeWhile_append_of_any (by simpa [asked] using h), atFill]

theorem present_append_of_none (entries : List Entry) (h : s.added? = none) :
    present entries (steps ++ [s]) = present entries steps := by
  simp [present, h]

theorem snapshot_append_of_asked (entries : List Entry) (hs : s.isClear = false)
    (h : asked f steps = true) : snapshot entries f (steps ++ [s]) = snapshot entries f steps := by
  rw [snapshot, atFill_append_of_asked hs h, snapshot]

theorem freshQueries_append :
    freshQueries (steps ++ [s]) = freshQueries steps + if isFresh steps s then 1 else 0 := by
  -- Whether an earlier step was fresh depends on the steps before it only.
  have earlier : ∀ i ∈ List.range steps.length,
      ((steps ++ [s])[i]?.any (isFresh ((steps ++ [s]).take i)) = true ↔
        steps[i]?.any (isFresh (steps.take i)) = true) := by
    intro i hi
    rw [List.mem_range] at hi
    rw [List.getElem?_append_left hi, List.take_append_of_le_length (by omega)]
  rw [freshQueries, List.length_append, List.length_singleton, List.range_succ,
    List.countP_append, List.countP_congr earlier, List.countP_singleton]
  simp [freshQueries]

end Append

end History

/-! ## The invariant -/

open History

/-- What a source holds and keeps after steps that began with some entries. -/
structure Reflects (entries : List Entry) (steps : List Step) (s : Source) : Prop where
  entries_eq : s.entries = present entries steps
  kept_eq : ∀ f, s.kept? f = if asked f steps then some (snapshot entries f steps) else none
  lookups_eq : s.lookups = freshQueries steps

variable {entries : List Entry} {steps : List Step} {s : Source}

theorem reflects_ofEntries (entries : List Entry) : Reflects entries [] (ofEntries entries) := by
  refine ⟨?_, fun f => rfl, rfl⟩
  simp [ofEntries, present]

/-- Two filters share a kept answer only if they are the same. -/
theorem lookup_cons_cacheKey (f g : Filter) (answer : List Entry)
    (kept : List (String × List Entry)) :
    ((f.cacheKey, answer) :: kept).lookup g.cacheKey =
      if g = f then some answer else kept.lookup g.cacheKey := by
  by_cases h : g = f
  · subst h
    simp
  · have key : (g.cacheKey == f.cacheKey) = false :=
      beq_false_of_ne fun hk => h (Filter.cacheKey_injective hk)
    rw [List.lookup_cons, key, if_neg h]

/-- An answer is the snapshot of the filter. -/
theorem Reflects.query_eq (h : Reflects entries steps s) (f : Filter) :
    (s.query f).1 = snapshot entries f steps := by
  unfold query
  rw [h.kept_eq f]
  by_cases ha : asked f steps = true
  · rw [if_pos ha]
  · rw [Bool.not_eq_true] at ha
    simp only [ha, Bool.false_eq_true, if_false, snapshot, h.entries_eq, atFill_of_not_asked ha]

/-- What was asked is kept as it was, and what a step does not ask is kept no more than before. -/
theorem Reflects.kept_append (h : Reflects entries steps s) {t : Step} (ht : t.isClear = false)
    {f : Filter} (hf : t.asks f = true → asked f steps = true) :
    s.kept? f =
      if asked f (steps ++ [t]) then some (snapshot entries f (steps ++ [t])) else none := by
  rw [h.kept_eq f, asked_append ht]
  by_cases ha : asked f steps = true
  · rw [snapshot_append_of_asked entries ht ha, ha]
    rfl
  · have hn : t.asks f = false := Bool.eq_false_iff.2 fun h => ha (hf h)
    rw [Bool.eq_false_iff.2 ha, hn]
    rfl

theorem Reflects.after_kept (h : Reflects entries steps s) {f : Filter}
    (ha : asked f steps = true) : Reflects entries (steps ++ [.query f]) s where
  entries_eq := by rw [h.entries_eq, present_append_of_none _ rfl]
  kept_eq := by
    intro g
    refine h.kept_append rfl fun hg => ?_
    have hfg : f = g := by simpa [Step.asks] using hg
    exact hfg ▸ ha
  lookups_eq := by
    rw [h.lookups_eq, freshQueries_append]
    simp [isFresh, ha]

theorem Reflects.after_lookup (h : Reflects entries steps s) {f : Filter}
    (ha : asked f steps = false) :
    Reflects entries (steps ++ [.query f])
      { s with kept := (f.cacheKey, s.entries.filter f.admits) :: s.kept
               lookups := s.lookups + 1 } where
  entries_eq := h.entries_eq.trans (present_append_of_none _ rfl).symm
  kept_eq := by
    intro g
    rw [kept?, lookup_cons_cacheKey]
    by_cases hg : g = f
    · subst hg
      rw [if_pos rfl, asked_append rfl, snapshot, atFill_append_query ha, h.entries_eq]
      simp [Step.asks]
    · rw [if_neg hg]
      exact h.kept_append rfl fun hq => absurd (by simpa [Step.asks] using hq) (Ne.symm hg)
  lookups_eq := by
    rw [freshQueries_append, ← h.lookups_eq]
    simp [isFresh, ha]

theorem Reflects.after_query (h : Reflects entries steps s) (f : Filter) :
    Reflects entries (steps ++ [.query f]) (s.query f).2 := by
  have hk := h.kept_eq f
  cases ha : asked f steps with
  | true =>
    rw [ha, if_pos rfl] at hk
    have same : (s.query f).2 = s := by rw [query, hk]
    rw [same]
    exact h.after_kept ha
  | false =>
    rw [ha, if_neg Bool.false_ne_true] at hk
    have new : (s.query f).2 =
        { s with kept := (f.cacheKey, s.entries.filter f.admits) :: s.kept
                 lookups := s.lookups + 1 } := by rw [query, hk]
    rw [new]
    exact h.after_lookup ha

theorem Reflects.after_add (h : Reflects entries steps s) (e : Entry) :
    Reflects entries (steps ++ [.add e]) (s.add e) := by
  refine ⟨?_, fun f => h.kept_append rfl nofun, ?_⟩
  · rw [add, h.entries_eq]
    simp [present, Step.added?]
  · rw [add, h.lookups_eq, freshQueries_append]
    simp [isFresh]

theorem Reflects.after_clear (h : Reflects entries steps s) :
    Reflects entries (steps ++ [.clear]) s.clear := by
  refine ⟨?_, fun f => ?_, ?_⟩
  · exact h.entries_eq.trans (present_append_of_none _ rfl).symm
  · rw [asked_append_clear]
    rfl
  · rw [clear, h.lookups_eq, freshQueries_append]
    simp [isFresh]

theorem Reflects.after (h : Reflects entries steps s) (t : Step) :
    Reflects entries (steps ++ [t]) (s.after t) := by
  cases t with
  | query f => exact h.after_query f
  | add e => exact h.after_add e
  | clear => exact h.after_clear

/-- The invariant holds after every run. -/
theorem reflects_run (entries : List Entry) (steps : List Step) :
    Reflects entries steps ((ofEntries entries).run steps) := by
  induction steps using List.reverseRecOn with
  | nil => exact reflects_ofEntries entries
  | append_singleton steps t ih =>
    rw [run, List.foldl_append]
    exact ih.after t

/-! ## What is answered -/

theorem Reflects.kept?_query (h : Reflects entries steps s) (f : Filter) :
    (s.query f).2.kept? f = some (s.query f).1 := by
  have hq := h.after_query f
  have ha : asked f (steps ++ [.query f]) = true := by
    rw [asked_append rfl]
    simp [Step.asks]
  rw [hq.kept_eq, if_pos ha, h.query_eq]
  by_cases hs : asked f steps = true
  · rw [snapshot_append_of_asked entries rfl hs]
  · rw [Bool.not_eq_true] at hs
    rw [snapshot, atFill_append_query hs, snapshot, atFill_of_not_asked hs]

/-- If nothing was added since the filter was first asked, the snapshot is up to date. -/
theorem snapshot_eq_of_none_added (f : Filter)
    (h : ∀ t ∈ (sinceClear steps).dropWhile fun t => !t.asks f, t.added? = none) :
    snapshot entries f steps = (present entries steps).filter f.admits := by
  have split : atFill f steps ++ (sinceClear steps).dropWhile (fun t => !t.asks f) = steps := by
    rw [atFill, List.append_assoc, List.takeWhile_append_dropWhile]
    exact List.rdropWhile_append_rtakeWhile ..
  have same : present entries steps = present entries (atFill f steps) := by
    conv_lhs => rw [← split]
    rw [present, List.filterMap_append, List.filterMap_eq_nil_iff.2 h, List.append_nil, present]
  rw [snapshot, same]

/--
After any steps a filter is answered by its snapshot, in the order of the entries, and there have
been as many lookups as queries that were asked for the first time since a clearing. No other
filter has the same key; every answer is kept, also an empty one; and as long as nothing is added,
an answer is what the filter admits.
-/
theorem query_run (entries : List Entry) (steps : List Step) (f : Filter) :
    let s := (ofEntries entries).run steps
    (s.query f).1 = snapshot entries f steps ∧
      s.lookups = freshQueries steps ∧
      (∀ g : Filter, g.cacheKey = f.cacheKey → g = f) ∧
      (s.query f).2.query f = s.query f ∧
      ((∀ t ∈ (sinceClear steps).dropWhile fun t => !t.asks f, t.added? = none) →
        (s.query f).1 = s.entries.filter f.admits) := by
  intro s
  have h : Reflects entries steps s := reflects_run entries steps
  refine ⟨h.query_eq f, h.lookups_eq, fun g hg => Filter.cacheKey_injective hg, ?_, fun hn => ?_⟩
  · rw [query, h.kept?_query f]
  · rw [h.query_eq f, h.entries_eq, snapshot_eq_of_none_added f hn]

end Worklog.Source
