import Worklog.Proofs.Sorting.Merge

/-!
# Sorted lists

The runs that a list is cut into are in order, and merging them in any grouping keeps them so:
a sorted list is in order wherever the comparison orders its elements (`Orders.inOrder_sort`).
Together with `sort_perm` this is what it means to sort. A list that is in order is one run, and
sorting leaves it as it is (`sort_eq_self`).
-/

namespace Worklog.Sorting

variable {α : Type}

section Order

variable {before : α → α → Bool} {p : α → Prop} (h : Orders before p)
include h

/-! ## Runs -/

omit h in
theorem forall_mem_of_append_eq {a : α} {run rest as : List α} (split : run ++ rest = as)
    (has : ∀ b ∈ a :: as, p b) : ∀ b ∈ a :: run, p b := by
  intro b hb
  rcases List.mem_cons.1 hb with rfl | hb
  · exact has b (by simp)
  · refine has b (List.mem_cons_of_mem a ?_)
    rw [← split]
    exact List.mem_append_left _ hb

theorem Orders.inOrder_ascending {last : α} {as : List α} (hl : p last) (has : ∀ a ∈ as, p a) :
    InOrder before (last :: (ascending before last as).1) := by
  induction as generalizing last with
  | nil => exact List.pairwise_singleton _ last
  | cons a as ih =>
    unfold ascending
    split
    · exact List.pairwise_singleton _ last
    · rename_i hs
      have hrun := ih (has a (by simp)) fun b hb => has b (by simp [hb])
      have hmem := forall_mem_of_append_eq (ascending_append before a as) has
      exact List.pairwise_cons.2
        ⟨h.forward.rel_all hl hmem hrun (Bool.eq_false_iff.2 hs), hrun⟩

theorem Orders.inOrder_descending {last : α} {as : List α} (hl : p last) (has : ∀ a ∈ as, p a) :
    (last :: (descending before last as).1).Pairwise fun a b => before a b = false := by
  induction as generalizing last with
  | nil => exact List.pairwise_singleton _ last
  | cons a as ih =>
    unfold descending
    split
    · rename_i hs
      have hrun := ih (has a (by simp)) fun b hb => has b (by simp [hb])
      have hmem := forall_mem_of_append_eq (descending_append before a as) has
      -- The run is read from its end here, so its elements stand in the opposite order.
      exact List.pairwise_cons.2
        ⟨h.backward.rel_all hl hmem hrun (h.asymm (has a (by simp)) hl hs), hrun⟩
    · exact List.pairwise_singleton _ last

theorem Orders.inOrder_firstRun {as : List α} (has : ∀ a ∈ as, p a) :
    InOrder before (firstRun before as).1 := by
  match as with
  | [] => exact List.Pairwise.nil
  | [a] => exact List.pairwise_singleton _ a
  | a :: b :: as =>
    have hrest : ∀ c ∈ b :: as, p c := fun c hc => has c (List.mem_cons_of_mem a hc)
    by_cases hs : before b a
    · simp only [firstRun, if_pos hs]
      exact List.pairwise_reverse.2 (h.inOrder_descending (has a (by simp)) hrest)
    · simp only [firstRun, if_neg hs]
      exact h.inOrder_ascending (has a (by simp)) hrest

theorem Orders.inOrder_insert {run : List α} {a : α} (hr : IsRun before p run) (ha : p a) :
    InOrder before (insert before run a) := by
  have hi := h.forward.initial_first hr.mem ha hr.inOrder
  have hsplit := List.takeWhile_append_dropWhile (p := fun b => !before a b) (l := run)
  simp only [insert]
  rw [hi.bisect_eq, ← hi.gallop_eq .forward, hi.take_gallop, hi.drop_gallop]
  have sr := hr.inOrder
  rw [InOrder, ← hsplit] at sr
  obtain ⟨st, sd, std⟩ := List.pairwise_append.1 sr
  refine List.pairwise_append.2 ⟨st, List.pairwise_cons.2 ⟨fun b hb => ?_, sd⟩, ?_⟩
  · have hs : before a b = true := by simpa using hi.of_mem_dropWhile hb
    exact h.asymm ha (hr.mem b ((List.dropWhile_suffix _).subset hb)) hs
  · intro b hb c hc
    rcases List.mem_cons.1 hc with rfl | hc
    · simpa using List.mem_takeWhile_imp hb
    · exact std b hb c hc

theorem Orders.isRun_foldl_insert {run as : List α} (hr : IsRun before p run)
    (has : ∀ a ∈ as, p a) : IsRun before p (as.foldl (insert before) run) := by
  induction as generalizing run with
  | nil => exact hr
  | cons a as ih =>
    refine ih ⟨fun b hb => ?_, h.inOrder_insert hr (has a (by simp))⟩
      fun b hb => has b (by simp [hb])
    rcases List.mem_append.1 ((insert_perm before run a).mem_iff.1 hb) with hb | hb
    · exact hr.mem b hb
    · rw [List.mem_singleton.1 hb]
      exact has a (by simp)

theorem Orders.isRun_of_mem_runs {least : Nat} {as : List α} (has : ∀ a ∈ as, p a) :
    ∀ run ∈ runs before least as, IsRun before p run := by
  fun_induction runs before least as with
  | case1 => intro run hr; cases hr
  | case2 a as ih =>
    have hfirst : ∀ b ∈ (firstRun before (a :: as)).1 ++ (firstRun before (a :: as)).2, p b :=
      fun b hb => has b ((firstRun_perm before (a :: as)).mem_iff.1 hb)
    have hrun : IsRun before p (firstRun before (a :: as)).1 :=
      ⟨fun b hb => hfirst b (List.mem_append_left _ hb), h.inOrder_firstRun has⟩
    intro run hr
    rcases List.mem_cons.1 hr with rfl | hr
    · exact h.isRun_foldl_insert hrun fun b hb =>
        hfirst b (List.mem_append_right _ (List.mem_of_mem_take hb))
    · exact ih (fun b hb => hfirst b (List.mem_append_right _ (List.mem_of_mem_drop hb))) run hr

/-! ## The sort -/

theorem Orders.isRun_mergeAbove {power patience : Nat} {top : List α} {below : List (List α × Nat)}
    (ht : IsRun before p top) (hb : ∀ r ∈ below, IsRun before p r.1) :
    IsRun before p (mergeAbove before power top patience below).top ∧
      ∀ r ∈ (mergeAbove before power top patience below).below, IsRun before p r.1 := by
  fun_induction mergeAbove before power top patience below with
  | case1 => exact ⟨ht, hb⟩
  | case2 top patience run q below _ merged patience' hm ih =>
    have hmerged := h.isRun_merge patience (hb (run, q) (by simp)) ht
    rw [hm] at hmerged
    exact ih hmerged fun r hr => hb r (by simp [hr])
  | case3 => exact ⟨ht, hb⟩

theorem Orders.isRun_pushAll {length start : Nat} {q : Pending α} {runs : List (List α)}
    (ht : IsRun before p q.top) (hb : ∀ r ∈ q.below, IsRun before p r.1)
    (hr : ∀ run ∈ runs, IsRun before p run) :
    IsRun before p (q.pushAll before length start runs).top ∧
      ∀ r ∈ (q.pushAll before length start runs).below, IsRun before p r.1 := by
  induction runs generalizing start q with
  | nil => exact ⟨ht, hb⟩
  | cons run runs ih =>
    simp only [Pending.pushAll]
    refine ih (hr run (by simp)) ?_ fun r hm => hr r (by simp [hm])
    intro r hm
    rcases List.mem_cons.1 hm with rfl | hm
    · exact (h.isRun_mergeAbove ht hb).1
    · exact (h.isRun_mergeAbove ht hb).2 r hm

theorem Orders.inOrder_collapse {patience : Nat} {runs : List (List α)}
    (hr : ∀ run ∈ runs, IsRun before p run) : InOrder before (collapse before patience runs) := by
  fun_induction collapse before patience runs with
  | case1 => exact List.Pairwise.nil
  | case2 patience run => exact (hr run (by simp)).inOrder
  | case3 patience c b => exact h.inOrder_merge patience (hr b (by simp)) (hr c (by simp))
  -- The smaller of the outer runs joins the middle one; the rest stays as it was.
  | case4 patience c b a below _ run patience' hm ih =>
    have hrun := h.isRun_merge patience (hr a (by simp)) (hr b (by simp))
    rw [hm] at hrun
    refine ih fun r hmem => ?_
    rcases List.mem_cons.1 hmem with rfl | hmem
    · exact hr r (by simp)
    · rcases List.mem_cons.1 hmem with rfl | hmem
      · exact hrun
      · exact hr r (by simp [hmem])
  | case5 patience c b a below _ run patience' hm ih =>
    have hrun := h.isRun_merge patience (hr b (by simp)) (hr c (by simp))
    rw [hm] at hrun
    refine ih fun r hmem => ?_
    rcases List.mem_cons.1 hmem with rfl | hmem
    · exact hrun
    · exact hr r (List.mem_cons_of_mem c (List.mem_cons_of_mem b hmem))

/-- A sorted list is in order, if the comparison orders its elements. -/
theorem Orders.inOrder_sort {as : List α} (has : ∀ a ∈ as, p a) :
    InOrder before (sort before as) := by
  have hruns : ∀ run ∈ runs before (leastLength as.length 0) as, IsRun before p run :=
    h.isRun_of_mem_runs has
  unfold sort
  split
  · exact List.Pairwise.nil
  · rename_i run rest hr
    rw [hr] at hruns
    have hp : IsRun before p (Pending.pushAll before as.length 0 ⟨run, [], longBlock⟩ rest).top ∧
        ∀ r ∈ (Pending.pushAll before as.length 0 ⟨run, [], longBlock⟩ rest).below,
          IsRun before p r.1 :=
      h.isRun_pushAll (hruns run (by simp)) nofun fun r hm => hruns r (by simp [hm])
    refine h.inOrder_collapse fun r hm => ?_
    rcases List.mem_cons.1 hm with rfl | hm
    · exact hp.1
    · obtain ⟨b, hb, rfl⟩ := List.mem_map.1 hm
      exact hp.2 b hb

end Order

/-! ## Lists in order -/

variable {before : α → α → Bool}

theorem ascending_eq_of_inOrder {last : α} {as : List α} (h : InOrder before (last :: as)) :
    ascending before last as = (as, []) := by
  induction as generalizing last with
  | nil => rfl
  | cons a as ih =>
    obtain ⟨hlast, has⟩ := List.pairwise_cons.1 h
    simp only [ascending, hlast a List.mem_cons_self, Bool.false_eq_true, if_false, ih has]

theorem firstRun_eq_of_inOrder {as : List α} (h : InOrder before as) :
    firstRun before as = (as, []) := by
  match as with
  | [] => rfl
  | [a] => rfl
  | a :: b :: as =>
    have hab := (List.pairwise_cons.1 h).1 b List.mem_cons_self
    simp only [firstRun, hab, Bool.false_eq_true, if_false, ascending_eq_of_inOrder h]

theorem runs_eq_of_inOrder {least : Nat} {a : α} {as : List α} (h : InOrder before (a :: as)) :
    runs before least (a :: as) = [a :: as] := by
  rw [runs, firstRun_eq_of_inOrder h]
  simp only [extend, List.take_nil, List.foldl_nil, List.drop_nil, runs]

/-- Sorting a list that is in order changes nothing. -/
theorem sort_eq_self {as : List α} (h : InOrder before as) : sort before as = as := by
  match as with
  | [] => rw [sort, runs]
  | a :: as =>
    rw [sort, runs_eq_of_inOrder h]
    simp only [Pending.pushAll, List.map_nil, collapse]

end Worklog.Sorting
