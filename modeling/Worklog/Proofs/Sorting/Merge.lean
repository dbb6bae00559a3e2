import Worklog.Proofs.Sorting.Search

/-!
# Merging runs in order

A comparison orders the elements that satisfy `p` if nothing comes both before and after another
one and not coming after is transitive (`Orders`). Then the merge of two runs in order is in order
(`Orders.inOrder_merge`). The one loop that merges from either end is proved correct for any
relation that its comparison decides (`Decides`, `mergeFrom_pairwise`), which is instantiated once
for each end.
-/

namespace Worklog.Sorting

variable {α : Type}

/-! ## Orders and runs -/

/-- The comparison orders the elements that satisfy `p`. -/
structure Orders (before : α → α → Bool) (p : α → Prop) : Prop where
  asymm : ∀ {a b}, p a → p b → before a b = true → before b a = false
  trans : ∀ {a b c}, p a → p b → p c → before b a = false → before c b = false →
    before c a = false

/-- No element comes before one that stands ahead of it. -/
def InOrder (before : α → α → Bool) (as : List α) : Prop :=
  as.Pairwise fun a b => before b a = false

/-- The comparison tells whether the head of the second run goes first, in the order `r`. -/
structure Decides (second : α → α → Bool) (r : α → α → Prop) (p : α → Prop) : Prop where
  trans : ∀ {a b c}, p a → p b → p c → r a b → r b c → r a c
  of_true : ∀ {x y}, p x → p y → second y x = true → r y x
  of_false : ∀ {x y}, p x → p y → second y x = false → r x y
  left : ∀ {x y y'}, p x → p y → p y' → r y y' → second y' x = true → second y x = true
  right : ∀ {x x' y}, p x → p x' → p y → r x x' → second y x = true → second y x' = true

/-- The last element of the shorter run goes behind all of the other. -/
def LastBehind (r : α → α → Prop) (short : Side) (xs ys : List α) : Prop :=
  match short with
  | .first => ∀ x ∈ xs.getLast?, ∀ y ∈ ys, r y x
  | .second => ∀ y ∈ ys.getLast?, ∀ x ∈ xs, r x y

/-- A pace that is about to take a head only does so when that head goes first. -/
def Pace.Ready (r : α → α → Prop) : Pace → List α → List α → Prop
  | .secondHead _, xs, y :: _ => ∀ x ∈ xs, r y x
  | .firstHead _, x :: _, ys => ∀ y ∈ ys, r x y
  | _, _, _ => True

theorem Pace.ready_ofWins (r : α → α → Prop) (patience m n : Nat) (xs ys : List α) :
    (Pace.ofWins patience m n).Ready r xs ys := by
  unfold ofWins
  split <;> trivial

theorem getLast?_of_suffix {xs xs' : List α} (h : xs' <:+ xs) {x : α} (hx : x ∈ xs'.getLast?) :
    x ∈ xs.getLast? := by
  obtain ⟨t, rfl⟩ := h
  rw [Option.mem_def] at hx ⊢
  simp [List.getLast?_append, hx]

theorem LastBehind.suffix {r : α → α → Prop} {short : Side} {xs xs' ys ys' : List α}
    (h : LastBehind r short xs ys) (hx : xs' <:+ xs) (hy : ys' <:+ ys) :
    LastBehind r short xs' ys' := by
  cases short with
  | first => exact fun x hl y hm => h x (getLast?_of_suffix hx hl) y (hy.subset hm)
  | second => exact fun y hl x hm => h y (getLast?_of_suffix hy hl) x (hx.subset hm)

theorem isSingle_iff {xs : List α} : isSingle xs = true ↔ ∃ x, xs = [x] := by
  match xs with
  | [] => simp [isSingle]
  | [x] => simp [isSingle]
  | _ :: _ :: _ => simp [isSingle]

theorem pairwise_leading {r : α → α → Prop} {block rest : List α} {m : List α × Nat}
    (hb : block.Pairwise r) (hm : m.1.Pairwise r) (hp : m.1.Perm rest)
    (h : ∀ a ∈ block, ∀ b ∈ rest, r a b) : (leading block m).1.Pairwise r :=
  List.pairwise_append.2 ⟨hb, hm, fun a ha b hb => h a ha b (hp.mem_iff.1 hb)⟩

theorem settled?_pairwise {r : α → α → Prop} {short : Side} {xs ys merged : List α}
    (h : settled? short xs ys = some merged) (sx : xs.Pairwise r) (sy : ys.Pairwise r)
    (hl : LastBehind r short xs ys) : merged.Pairwise r := by
  simp only [settled?] at h
  split at h
  · rename_i hc
    cases h
    refine List.pairwise_append.2 ⟨sx, sy, fun x hx y hy => ?_⟩
    rcases Bool.or_eq_true_iff.1 hc with hc | hc
    · rw [List.isEmpty_iff.1 hc] at hx; cases hx
    · obtain ⟨hs, hc⟩ := Bool.and_eq_true_iff.1 hc
      obtain ⟨z, rfl⟩ := isSingle_iff.1 hc
      cases short with
      | first => cases hs
      | second =>
        rw [List.mem_singleton.1 hy]
        exact hl z rfl x hx
  · split at h
    · rename_i hc
      cases h
      refine List.pairwise_append.2 ⟨sy, sx, fun y hy x hx => ?_⟩
      rcases Bool.or_eq_true_iff.1 hc with hc | hc
      · rw [List.isEmpty_iff.1 hc] at hy; cases hy
      · obtain ⟨hs, hc⟩ := Bool.and_eq_true_iff.1 hc
        obtain ⟨z, rfl⟩ := isSingle_iff.1 hc
        cases short with
        | first =>
          rw [List.mem_singleton.1 hx]
          exact hl z rfl y hy
        | second => cases hs
    · cases h

/-! ## Merging from one end -/

section Merging

variable {second : α → α → Bool} {r : α → α → Prop} {p : α → Prop}

theorem Decides.initial_first (h : Decides second r p) {xs : List α} {y : α}
    (hx : ∀ x ∈ xs, p x) (hy : p y) (sx : xs.Pairwise r) : Initial (fun x => !second y x) xs := by
  refine sx.imp_of_mem fun {a b} ha hb hab hs => ?_
  rw [Bool.not_eq_true'] at hs ⊢
  cases ht : second y a with
  | false => rfl
  | true => rw [h.right (hx a ha) (hx b hb) hy hab ht] at hs; cases hs

theorem Decides.initial_second (h : Decides second r p) {ys : List α} {x : α}
    (hx : p x) (hy : ∀ y ∈ ys, p y) (sy : ys.Pairwise r) : Initial (fun y => second y x) ys :=
  sy.imp_of_mem fun {a b} ha hb hab hs => h.left hx (hy a ha) (hy b hb) hab hs

/-- What comes before the head of a run comes before all of it. -/
theorem Decides.rel_all (h : Decides second r p) {a x : α} {xs : List α} (ha : p a)
    (hx : ∀ b ∈ x :: xs, p b) (sx : (x :: xs).Pairwise r) (hax : r a x) :
    ∀ b ∈ x :: xs, r a b := by
  intro b hb
  rcases List.mem_cons.1 hb with rfl | hb'
  · exact hax
  · exact h.trans ha (hx x (by simp)) (hx b hb) hax (List.rel_of_pairwise_cons sx hb')

/-- A head that comes before the other run may be taken. -/
theorem pairwise_leading_head {x : α} {xs ys : List α} {m : List α × Nat}
    (sx : (x :: xs).Pairwise r)
    (hxy : ∀ b ∈ ys, r x b) (hm : m.1.Pairwise r) (hp : m.1.Perm (xs ++ ys)) :
    (leading [x] m).1.Pairwise r := by
  refine pairwise_leading (List.pairwise_singleton r x) hm hp ?_
  intro a ha b hb
  rw [List.mem_singleton.1 ha]
  rcases List.mem_append.1 hb with hb | hb
  · exact List.rel_of_pairwise_cons sx hb
  · exact hxy b hb

/-- A block of which all comes before the other run may be taken. -/
theorem pairwise_leading_block {q : α → Bool} {xs ys : List α} {m : List α × Nat}
    (sx : xs.Pairwise r) (hxy : ∀ a ∈ xs.takeWhile q, ∀ b ∈ ys, r a b) (hm : m.1.Pairwise r)
    (hp : m.1.Perm (xs.dropWhile q ++ ys)) : (leading (xs.takeWhile q) m).1.Pairwise r := by
  rw [← List.takeWhile_append_dropWhile (p := q) (l := xs)] at sx
  obtain ⟨st, -, hd⟩ := List.pairwise_append.1 sx
  refine pairwise_leading st hm hp fun a ha b hb => ?_
  rcases List.mem_append.1 hb with hb | hb
  · exact hd a ha b hb
  · exact hxy a ha b hb

theorem mergeFrom_pairwise (h : Decides second r p) (d : Direction) (short : Side) (pace : Pace)
    (patience : Nat) {xs ys : List α} (hx : ∀ x ∈ xs, p x) (hy : ∀ y ∈ ys, p y)
    (sx : xs.Pairwise r) (sy : ys.Pairwise r) (hl : LastBehind r short xs ys)
    (hr : pace.Ready r xs ys) : (mergeFrom d short second pace patience xs ys).1.Pairwise r := by
  -- Only the two head cases need `Pace.Ready`; a block leaves it behind for the head after it.
  fun_induction mergeFrom d short second pace patience xs ys with
  | case1 pace patience xs ys merged hs => exact settled?_pairwise hs sx sy hl
  | case2 patience x xs y ys m n hs _ ih =>
    have hyx : ∀ b ∈ x :: xs, r y b :=
      h.rel_all (hy y (by simp)) hx sx (h.of_true (hx x (by simp)) (hy y (by simp)) hs)
    refine pairwise_leading_head sy hyx ?_ ((mergeFrom_perm ..).trans List.perm_append_comm)
    exact ih hx (fun b hb => hy b (by simp [hb])) sx sy.of_cons
      (hl.suffix (List.suffix_refl _) (List.suffix_cons y ys)) (Pace.ready_ofWins ..)
  | case3 patience x xs y ys m n hs _ ih =>
    have hxy : ∀ b ∈ y :: ys, r x b :=
      h.rel_all (hx x (by simp)) hy sy (h.of_false (hx x (by simp)) (hy y (by simp))
        (Bool.eq_false_iff.2 hs))
    refine pairwise_leading_head sx hxy ?_ (mergeFrom_perm ..)
    exact ih (fun b hb => hx b (by simp [hb])) hy sx.of_cons sy
      (hl.suffix (List.suffix_cons x xs) (List.suffix_refl _)) (Pace.ready_ofWins ..)
  | case4 patience x xs y ys _ k ih =>
    have hi := h.initial_first hx (hy y (by simp)) sx
    have hpy : p y := hy y (by simp)
    rw [hi.drop_gallop d] at ih ⊢
    rw [hi.take_gallop d]
    have hd : (x :: xs).dropWhile (fun x => !second y x) <:+ x :: xs := List.dropWhile_suffix _
    refine pairwise_leading_block sx ?_ ?_ (mergeFrom_perm ..)
    · intro a ha
      have hpa : p a := hx a ((List.takeWhile_prefix _).subset ha)
      have hs : second y a = false := by simpa using List.mem_takeWhile_imp ha
      exact h.rel_all hpa hy sy (h.of_false hpa hpy hs)
    · refine ih (fun b hb => hx b (hd.subset hb)) hy (sx.sublist hd.sublist) sy
        (hl.suffix hd (List.suffix_refl _)) ?_
      intro b hb
      exact h.of_true (hx b (hd.subset hb)) hpy (by simpa using hi.of_mem_dropWhile hb)
  | case5 patience x xs y ys _ k ih =>
    refine pairwise_leading_head sy hr ?_ ((mergeFrom_perm ..).trans List.perm_append_comm)
    exact ih hx (fun b hb => hy b (by simp [hb])) sx sy.of_cons
      (hl.suffix (List.suffix_refl _) (List.suffix_cons y ys)) trivial
  | case6 patience x xs y ys _ k l ih =>
    have hpx : p x := hx x (by simp)
    have hi := h.initial_second hpx hy sy
    rw [hi.drop_gallop d] at ih ⊢
    rw [hi.take_gallop d]
    have hd : (y :: ys).dropWhile (fun y => second y x) <:+ y :: ys := List.dropWhile_suffix _
    refine pairwise_leading_block sy ?_ ?_ ((mergeFrom_perm ..).trans List.perm_append_comm)
    · intro a ha
      have hpa : p a := hy a ((List.takeWhile_prefix _).subset ha)
      have hs : second a x = true := List.mem_takeWhile_imp (p := fun y => second y x) ha
      exact h.rel_all hpa hx sx (h.of_true hpx hpa hs)
    · refine ih hx (fun b hb => hy b (hd.subset hb)) sx (sy.sublist hd.sublist)
        (hl.suffix (List.suffix_refl _) hd) ?_
      intro b hb
      exact h.of_false hpx (hy b (hd.subset hb)) (hi.of_mem_dropWhile hb)
  | case7 patience x xs y ys _ k ih =>
    refine pairwise_leading_head sx hr ?_ (mergeFrom_perm ..)
    exact ih (fun b hb => hx b (by simp [hb])) hy sx.of_cons sy
      (hl.suffix (List.suffix_cons x xs) (List.suffix_refl _)) trivial
  | case8 patience x xs y ys _ k _ ih => exact ih hx hy sx sy hl trivial
  | case9 patience x xs y ys _ k _ ih => exact ih hx hy sx sy hl trivial
  | case10 pace patience xs ys hc _ =>
    cases xs with
    | nil => exact sy
    | cons x xs =>
      cases ys with
      | nil => simpa using sx
      | cons y ys => exact (hc x xs y ys rfl rfl).elim

end Merging

/-! ## Merging two runs -/

/-- A run in order of elements that satisfy `p`. -/
structure IsRun (before : α → α → Bool) (p : α → Prop) (as : List α) : Prop where
  mem : ∀ a ∈ as, p a
  inOrder : InOrder before as

section Order

variable {before : α → α → Bool} {p : α → Prop} (h : Orders before p)
include h

/-- Merging from the start, the second run goes first if its head comes before. -/
theorem Orders.forward : Decides before (fun a b => before b a = false) p where
  trans := h.trans
  of_true := fun hx hy => h.asymm hy hx
  of_false := fun _ _ hs => hs
  left := by
    intro x y y' hx hy hy' hr hs
    cases hb : before y x with
    | true => rfl
    | false => rw [h.trans hx hy hy' hb hr] at hs; cases hs
  right := by
    intro x x' y hx hx' hy hr hs
    cases hb : before y x' with
    | true => rfl
    | false => rw [h.trans hx hx' hy hr hb] at hs; cases hs

/-- Merging from the end, the second run goes first unless its last comes before. -/
theorem Orders.backward :
    Decides (fun y x => !before y x) (fun a b => before a b = false) p where
  trans := fun ha hb hc hab hbc => h.trans hc hb ha hbc hab
  of_true := fun _ _ hs => by simpa using hs
  of_false := fun hx hy hs => h.asymm hy hx (by simpa using hs)
  left := by
    intro x y y' hx hy hy' hr hs
    rw [Bool.not_eq_true'] at hs ⊢
    exact h.trans hx hy' hy hs hr
  right := by
    intro x x' y hx hx' hy hr hs
    rw [Bool.not_eq_true'] at hs ⊢
    exact h.trans hx' hx hy hr hs

section Interlocked

variable {xs ys : List α} (hx : IsRun before p xs) (hy : IsRun before p ys)
  (hfirst : ∀ y ∈ ys.head?, ∀ x ∈ xs, before x y = false)
  (hlast : ∀ x ∈ xs.getLast?, ∀ y ∈ ys, before x y = false)

include hx hy hfirst hlast

theorem Orders.inOrder_forward (patience : Nat) (hlen : xs.length ≤ ys.length) :
    InOrder before (leading (ys.take 1)
      (mergeFrom .forward .first before (.single 0 0) patience xs (ys.drop 1))).1 := by
  cases ys with
  | nil =>
    have hnil : xs = [] := List.eq_nil_of_length_eq_zero (Nat.le_zero.1 hlen)
    subst hnil
    simp [mergeFrom, settled?, leading, InOrder]
  | cons y ys =>
    refine pairwise_leading_head hy.inOrder (hfirst y rfl) ?_
      ((mergeFrom_perm ..).trans List.perm_append_comm)
    refine mergeFrom_pairwise h.forward _ _ _ _ hx.mem
      (fun b hb => hy.mem b (List.mem_cons_of_mem y hb)) hx.inOrder hy.inOrder.of_cons ?_ trivial
    exact fun x hxl b hb => hlast x hxl b (List.mem_cons_of_mem y hb)

theorem Orders.inOrder_backward (patience : Nat) (hlen : ¬ xs.length ≤ ys.length) :
    (leading (xs.reverse.take 1) (mergeFrom .backward .second (fun y x => !before y x)
      (.single 0 0) patience (xs.reverse.drop 1) ys.reverse)).1.Pairwise
        fun a b => before a b = false := by
  have sx : xs.reverse.Pairwise fun a b => before a b = false :=
    List.pairwise_reverse.2 hx.inOrder
  have sy : ys.reverse.Pairwise fun a b => before a b = false :=
    List.pairwise_reverse.2 hy.inOrder
  cases hr : xs.reverse with
  | nil =>
    rw [List.reverse_eq_nil_iff.1 hr] at hlen
    exact absurd (Nat.zero_le _) hlen
  | cons x xr =>
    have hmem : ∀ b ∈ xr, b ∈ xs := fun b hb =>
      List.mem_reverse.1 (hr ▸ List.mem_cons_of_mem x hb)
    have hxl : xs.getLast? = some x := by
      rw [List.getLast?_eq_head?_reverse, hr]; rfl
    rw [hr] at sx
    refine pairwise_leading_head sx (fun b hb => hlast x hxl b (List.mem_reverse.1 hb)) ?_
      (mergeFrom_perm ..)
    refine mergeFrom_pairwise h.backward _ _ _ _ (fun b hb => hx.mem b (hmem b hb))
      (fun b hb => hy.mem b (List.mem_reverse.1 hb)) sx.of_cons sy ?_ trivial
    intro y hyl b hb
    rw [List.getLast?_reverse] at hyl
    exact hfirst y hyl b (hmem b hb)

/-- Two runs of which the second has the first element and the first has the last are merged. -/
theorem Orders.inOrder_mergeInterlocked (patience : Nat) :
    InOrder before (mergeInterlocked before patience xs ys).1 := by
  unfold mergeInterlocked
  split
  · rename_i hlen
    exact h.inOrder_forward hx hy hfirst hlast patience hlen
  · rename_i hlen
    exact List.pairwise_reverse.2 (h.inOrder_backward hx hy hfirst hlast patience hlen)

end Interlocked

/-- What is in place at the start of the first run does not come after the second. -/
theorem Orders.take_placedBefore {xs ys : List α} (hx : IsRun before p xs)
    (hy : IsRun before p ys) {a y : α} (ha : a ∈ xs.take (placedBefore before xs ys))
    (hhead : ys.head? = some y) : before y a = false := by
  have hpy : p y := hy.mem y (List.mem_of_mem_head? hhead)
  have hi := h.forward.initial_first hx.mem hpy hx.inOrder
  simp only [placedBefore, hhead, hi.take_gallop] at ha
  simpa using List.mem_takeWhile_imp ha

theorem Orders.drop_placedBefore {xs ys : List α} (hx : IsRun before p xs)
    (hy : IsRun before p ys) {a : α} (ha : a ∈ xs.drop (placedBefore before xs ys)) :
    ∃ y, ys.head? = some y ∧ before y a = true := by
  cases hhead : ys.head? with
  | none => simp [placedBefore, hhead] at ha
  | some y =>
    have hpy : p y := hy.mem y (List.mem_of_mem_head? hhead)
    have hi := h.forward.initial_first hx.mem hpy hx.inOrder
    simp only [placedBefore, hhead, hi.drop_gallop] at ha
    exact ⟨y, rfl, by simpa using hi.of_mem_dropWhile ha⟩

/-- What is in place at the end of the second run does not come before the first. -/
theorem Orders.drop_placedBehind {xs ys : List α} (hx : IsRun before p xs)
    (hy : IsRun before p ys) {b x : α}
    (hb : b ∈ ys.drop (ys.length - placedBehind before xs ys)) (hlast : xs.getLast? = some x) :
    before b x = false := by
  have hpx : p x := hx.mem x (List.mem_of_getLast? hlast)
  have hi := h.backward.initial_second hpx (fun b hb => hy.mem b (List.mem_reverse.1 hb))
    (List.pairwise_reverse.2 hy.inOrder)
  rw [← List.mem_reverse, ← List.take_reverse] at hb
  simp only [placedBehind, hlast, hi.take_gallop] at hb
  simpa using List.mem_takeWhile_imp hb

theorem Orders.take_placedBehind {xs ys : List α} (hx : IsRun before p xs)
    (hy : IsRun before p ys) {b : α}
    (hb : b ∈ ys.take (ys.length - placedBehind before xs ys)) :
    ∃ x, xs.getLast? = some x ∧ before b x = true := by
  cases hlast : xs.getLast? with
  | none => simp [placedBehind, hlast] at hb
  | some x =>
    have hpx : p x := hx.mem x (List.mem_of_getLast? hlast)
    have hi := h.backward.initial_second hpx (fun b hb => hy.mem b (List.mem_reverse.1 hb))
      (List.pairwise_reverse.2 hy.inOrder)
    rw [← List.mem_reverse, ← List.drop_reverse] at hb
    simp only [placedBehind, hlast, hi.drop_gallop] at hb
    exact ⟨x, rfl, by simpa using hi.of_mem_dropWhile hb⟩

/-- What is not after the head of a run is not after any of it. -/
theorem Orders.notAfter_of_head {a : α} {ys : List α} (ha : p a) (hy : IsRun before p ys)
    (hhead : ∀ y ∈ ys.head?, before y a = false) : ∀ b ∈ ys, before b a = false := by
  cases ys with
  | nil => intro b hb; cases hb
  | cons y ys => exact h.forward.rel_all ha hy.mem hy.inOrder (hhead y rfl)

/-- What is not before the last of a run is not before any of it. -/
theorem Orders.notBefore_of_last {b : α} {xs : List α} (hb : p b) (hx : IsRun before p xs)
    (hlast : ∀ x ∈ xs.getLast?, before b x = false) : ∀ a ∈ xs, before b a = false := by
  intro a ha
  have sx := List.pairwise_reverse.2 hx.inOrder
  rw [List.getLast?_eq_head?_reverse] at hlast
  have hmem : ∀ a ∈ xs.reverse, p a := fun a ha => hx.mem a (List.mem_reverse.1 ha)
  rw [← List.mem_reverse] at ha
  cases hr : xs.reverse with
  | nil => rw [hr] at ha; cases ha
  | cons x xr =>
    rw [hr] at sx ha hmem hlast
    exact h.backward.rel_all hb hmem sx (hlast x rfl) a ha

/-- A merge of the inner parts of two runs goes between their outer parts. -/
theorem Orders.inOrder_framed {xt xd yt yd merged : List α} (hx : IsRun before p (xt ++ xd))
    (hy : IsRun before p (yt ++ yd)) (hm : InOrder before merged) (hp : merged.Perm (xd ++ yt))
    (hstart : ∀ a ∈ xt, ∀ y ∈ (yt ++ yd).head?, before y a = false)
    (hstop : ∀ b ∈ yd, ∀ x ∈ xd.getLast?, before b x = false) :
    InOrder before (xt ++ merged ++ yd) := by
  obtain ⟨sxt, sxd, sx⟩ := List.pairwise_append.1 hx.inOrder
  obtain ⟨syt, syd, sy⟩ := List.pairwise_append.1 hy.inOrder
  have hxd : IsRun before p xd := ⟨fun a ha => hx.mem a (List.mem_append_right xt ha), sxd⟩
  have hstart' : ∀ a ∈ xt, ∀ b ∈ yt ++ yd, before b a = false := fun a ha =>
    h.notAfter_of_head (hx.mem a (List.mem_append_left xd ha)) hy (hstart a ha)
  have hstop' : ∀ b ∈ yd, ∀ a ∈ xd, before b a = false := fun b hb =>
    h.notBefore_of_last (hy.mem b (List.mem_append_right yt hb)) hxd (hstop b hb)
  refine List.pairwise_append.2 ⟨List.pairwise_append.2 ⟨sxt, hm, ?_⟩, syd, ?_⟩
  · intro a ha b hb
    rcases List.mem_append.1 (hp.mem_iff.1 hb) with hb | hb
    · exact sx a ha b hb
    · exact hstart' a ha b (List.mem_append_left yd hb)
  · intro a ha b hb
    rcases List.mem_append.1 ha with ha | ha
    · exact hstart' a ha b (List.mem_append_right yt hb)
    · rcases List.mem_append.1 (hp.mem_iff.1 ha) with ha | ha
      · exact hstop' b hb a ha
      · exact sy a ha b hb

/-- The merge of two runs in order is in order. -/
theorem Orders.inOrder_merge (patience : Nat) {xs ys : List α} (hx : IsRun before p xs)
    (hy : IsRun before p ys) : InOrder before (merge before patience xs ys).1 := by
  simp only [merge]
  have hxs := List.take_append_drop (placedBefore before xs ys) xs
  have hstart : ∀ a ∈ xs.take (placedBefore before xs ys), ∀ y ∈ ys.head?, before y a = false :=
    fun a ha y hhead => h.take_placedBefore hx hy ha hhead
  have hinner : ∀ a ∈ xs.drop (placedBefore before xs ys),
      ∃ y, ys.head? = some y ∧ before y a = true :=
    fun a ha => h.drop_placedBefore hx hy ha
  -- From here on only what is known of the parts matters, not how they were found.
  generalize xs.take (placedBefore before xs ys) = xt at hxs hstart ⊢
  generalize xs.drop (placedBefore before xs ys) = xd at hxs hinner ⊢
  subst hxs
  have hxd : IsRun before p xd :=
    ⟨fun a ha => hx.mem a (List.mem_append_right xt ha), (List.pairwise_append.1 hx.inOrder).2.1⟩
  have hys := List.take_append_drop (ys.length - placedBehind before xd ys) ys
  have hstop : ∀ b ∈ ys.drop (ys.length - placedBehind before xd ys), ∀ x ∈ xd.getLast?,
      before b x = false := fun b hb x hlast => h.drop_placedBehind hxd hy hb hlast
  have houter : ∀ b ∈ ys.take (ys.length - placedBehind before xd ys),
      ∃ x, xd.getLast? = some x ∧ before b x = true := fun b hb => h.take_placedBehind hxd hy hb
  generalize ys.take (ys.length - placedBehind before xd ys) = yt at hys houter ⊢
  generalize ys.drop (ys.length - placedBehind before xd ys) = yd at hys hstop ⊢
  subst hys
  have hyt : IsRun before p yt :=
    ⟨fun a ha => hy.mem a (List.mem_append_left yd ha), (List.pairwise_append.1 hy.inOrder).1⟩
  refine h.inOrder_framed hx hy ?_ (mergeInterlocked_perm ..) hstart hstop
  refine h.inOrder_mergeInterlocked hxd hyt ?_ ?_ patience
  · intro y hhead a ha
    obtain ⟨z, hz, hlt⟩ := hinner a ha
    have hzy : z = y := by
      cases yt with
      | nil => cases hhead
      | cons b bs => cases hhead; cases hz; rfl
    subst hzy
    exact h.asymm (hyt.mem z (List.mem_of_mem_head? hhead)) (hxd.mem a ha) hlt
  · intro x hlast b hb
    obtain ⟨z, hz, hlt⟩ := houter b hb
    rw [Option.mem_def, hz] at hlast
    cases hlast
    exact h.asymm (hyt.mem b hb) (hxd.mem x (List.mem_of_getLast? hz)) hlt

theorem Orders.isRun_merge (patience : Nat) {xs ys : List α} (hx : IsRun before p xs)
    (hy : IsRun before p ys) : IsRun before p (merge before patience xs ys).1 := by
  refine ⟨fun a ha => ?_, h.inOrder_merge patience hx hy⟩
  rcases List.mem_append.1 ((merge_perm before patience xs ys).mem_iff.1 ha) with ha | ha
  · exact hx.mem a ha
  · exact hy.mem a ha

end Order

end Worklog.Sorting
