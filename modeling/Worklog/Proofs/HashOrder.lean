import Mathlib.RingTheory.ZMod.UnitsCyclic
import Worklog.HashOrder
import Worklog.Proofs.Sorting.Sorted

/-!
# Free slots of a hashed set

The starts at which a free slot is looked for go through all slots of a table, since five has the
greatest order that a number can have modulo a power of two (`exists_iterate_nextStart`). So the
rounds that `freeSlot` is given find a slot if there is a free one (`taken_freeSlot`), and as a
table makes room in time, each element of a set has a slot of its own (`sound_ofList`). The order
of the set is that of these slots (`arrange_ascending`).
-/

namespace Worklog.HashOrder

/-! ## Starts -/

/-- The start that follows another one when the hash is used up. -/
def nextStart (size start : Nat) : Nat := (start * 5 + 1) % size

variable {b start slot : Nat}

/-- Four times a start and one more: each start is the one before times five. -/
theorem cast_nextStart (b start : Nat) :
    ((4 * nextStart (2 ^ b) start + 1 : Nat) : ZMod (2 ^ (b + 2))) =
      5 * ((4 * start + 1 : Nat) : ZMod (2 ^ (b + 2))) := by
  have scaled : 4 * nextStart (2 ^ b) start = 4 * (start * 5 + 1) % 2 ^ (b + 2) := by
    rw [nextStart, ← Nat.mul_mod_mul_left, Nat.pow_add, Nat.mul_comm (2 ^ b)]
  rw [Nat.cast_add, scaled, ZMod.natCast_mod]
  push_cast
  ring

theorem cast_iterate_nextStart (b start k : Nat) :
    ((4 * (nextStart (2 ^ b))^[k] start + 1 : Nat) : ZMod (2 ^ (b + 2))) =
      5 ^ k * ((4 * start + 1 : Nat) : ZMod (2 ^ (b + 2))) := by
  induction k with
  | zero => rw [pow_zero, one_mul, Function.iterate_zero_apply]
  | succ k ih => rw [Function.iterate_succ_apply', cast_nextStart, ih, pow_succ' 5, mul_assoc]

theorem isUnit_cast (b start : Nat) :
    IsUnit ((4 * start + 1 : Nat) : ZMod (2 ^ (b + 2))) := by
  rw [ZMod.isUnit_iff_coprime]
  have odd : Odd (4 * start + 1) := ⟨2 * start, by ring⟩
  exact odd.coprime_two_right.pow_right _

/-- No start comes again before all slots have been one. -/
theorem injOn_iterate_nextStart (b start : Nat) :
    Set.InjOn (fun k => (nextStart (2 ^ b))^[k] start) (Set.Iio (2 ^ b)) := by
  intro j hj k hk same
  have powers : (5 : ZMod (2 ^ (b + 2))) ^ j = 5 ^ k := by
    refine (isUnit_cast b start).mul_right_cancel ?_
    rw [← cast_iterate_nextStart, ← cast_iterate_nextStart]
    exact congrArg (fun s : Nat => ((4 * s + 1 : Nat) : ZMod (2 ^ (b + 2)))) same
  rw [← ZMod.orderOf_five b] at hj hk
  exact pow_injOn_Iio_orderOf hj hk powers

theorem iterate_nextStart_lt (hstart : start < 2 ^ b) (k : Nat) :
    (nextStart (2 ^ b))^[k] start < 2 ^ b := by
  cases k with
  | zero => exact hstart
  | succ k =>
    rw [Function.iterate_succ_apply']
    exact Nat.mod_lt _ (Nat.two_pow_pos b)

/-- The starts go through all slots. -/
theorem exists_iterate_nextStart (hstart : start < 2 ^ b) (hslot : slot < 2 ^ b) :
    ∃ k < 2 ^ b, (nextStart (2 ^ b))^[k] start = slot := by
  have within : Set.MapsTo (fun k => (nextStart (2 ^ b))^[k] start)
      (Finset.range (2 ^ b)) (Finset.range (2 ^ b)) := fun k _ =>
    Finset.mem_coe.2 (Finset.mem_range.2 (iterate_nextStart_lt hstart k))
  have distinct := injOn_iterate_nextStart b start
  rw [← Finset.coe_range] at distinct
  obtain ⟨k, hk, eq⟩ := Finset.surjOn_of_injOn_of_card_le _ within distinct le_rfl
    (Finset.mem_coe.2 (Finset.mem_range.2 hslot))
  exact ⟨k, Finset.mem_range.1 (Finset.mem_coe.1 hk), eq⟩

/-! ## Rounds -/

variable {taken : Nat → Bool} {size : Nat}

theorem lt_of_mem_block (hstart : start < size) (h : slot ∈ block size start) : slot < size := by
  unfold block at h
  split at h
  · obtain ⟨-, below⟩ := List.mem_range'_1.1 h
    omega
  · rwa [List.mem_singleton.1 h]

theorem start_mem_block (size start : Nat) : start ∈ block size start := by
  unfold block
  split
  · exact List.mem_range'_1.2 ⟨le_rfl, by omega⟩
  · exact List.mem_singleton_self start

theorem freeSlot_lt (hstart : start < size) (rounds rest : Nat) :
    freeSlot taken size rounds start rest < size := by
  induction rounds generalizing start rest with
  | zero => exact hstart
  | succ rounds ih =>
    unfold freeSlot
    split
    · rename_i found
      exact lt_of_mem_block hstart (List.mem_of_find?_eq_some found)
    · exact ih (Nat.mod_lt _ (Nat.zero_lt_of_lt hstart)) _

/-- The start that follows, and what is left of the hash behind it. -/
def nextRound (size : Nat) (round : Nat × Nat) : Nat × Nat :=
  ((round.1 * 5 + 1 + round.2 / 32) % size, round.2 / 32)

/-- A round finds a free slot, or its start is taken and the next round goes on. -/
theorem freeSlot_succ (taken : Nat → Bool) (size rounds : Nat) (round : Nat × Nat) :
    taken (freeSlot taken size (rounds + 1) round.1 round.2) = false ∨
      taken round.1 = true ∧ freeSlot taken size (rounds + 1) round.1 round.2 =
        freeSlot taken size rounds (nextRound size round).1 (nextRound size round).2 := by
  rw [freeSlot]
  cases found : (block size round.1).find? fun slot => !taken slot with
  | some slot => exact .inl (by simpa using List.find?_some found)
  | none =>
    have all := List.find?_eq_none.1 found round.1 (start_mem_block size round.1)
    exact .inr ⟨by simpa using all, rfl⟩

/-- A round that begins at a free slot is the last one. -/
theorem taken_freeSlot_of_iterate {k rounds : Nat} (enough : k < rounds) (round : Nat × Nat)
    (free : taken ((nextRound size)^[k] round).1 = false) :
    taken (freeSlot taken size rounds round.1 round.2) = false := by
  obtain ⟨rounds, rfl⟩ := Nat.exists_eq_add_one_of_ne_zero (Nat.ne_zero_of_lt enough)
  rcases freeSlot_succ taken size rounds round with found | ⟨occupied, next⟩
  · exact found
  · rw [next]
    cases k with
    | zero => exact absurd (occupied.symm.trans free) nofun
    | succ k =>
      exact taken_freeSlot_of_iterate (Nat.lt_of_succ_lt_succ enough) (nextRound size round) free

theorem iterate_nextRound_snd (round : Nat × Nat) (k : Nat) :
    ((nextRound size)^[k] round).2 = round.2 / 32 ^ k := by
  induction k with
  | zero => simp
  | succ k ih =>
    rw [Function.iterate_succ_apply', nextRound, ih, Nat.div_div_eq_div_mul, Nat.pow_succ]

theorem iterate_nextRound_zero (start k : Nat) :
    (nextRound size)^[k] (start, 0) = ((nextStart size)^[k] start, 0) := by
  induction k with
  | zero => rfl
  | succ k ih =>
    rw [Function.iterate_succ_apply', Function.iterate_succ_apply', ih, nextRound, Nat.zero_div,
      Nat.add_zero, nextStart]

/-- Thirteen rounds use the hash up, and as many as there are slots find one that is free. -/
theorem taken_freeSlot {hash : Nat} (hhash : hash < 2 ^ 64) (hslot : slot < 2 ^ b)
    (free : taken slot = false) :
    taken (freeSlot taken (2 ^ b) (2 ^ b + 13) start hash) = false := by
  have used : ((nextRound (2 ^ b))^[13] (start, hash)).2 = 0 := by
    rw [iterate_nextRound_snd]
    exact Nat.div_eq_of_lt (hhash.trans (by decide))
  have within : ((nextRound (2 ^ b))^[13] (start, hash)).1 < 2 ^ b := by
    rw [Function.iterate_succ_apply']
    exact Nat.mod_lt _ (Nat.two_pow_pos b)
  obtain ⟨k, hk, reaches⟩ := exists_iterate_nextStart within hslot
  refine taken_freeSlot_of_iterate (k := k + 13) (by omega) (start, hash) ?_
  rw [Function.iterate_add_apply, ← Prod.mk.eta (p := (nextRound (2 ^ b))^[13] (start, hash)),
    used, iterate_nextRound_zero, reaches]
  exact free

/-! ## Tables -/

variable {α : Type}

namespace Table

variable {t : Table α}

/-- The slots are a power of two in number, and each element has one of its own. -/
structure Sound (t : Table α) : Prop where
  size : ∃ b, t.size = 2 ^ b
  within : ∀ f ∈ t.filled, f.1 < t.size
  distinct : (t.filled.map Prod.fst).Nodup

/-- Fewer than three fifths of the slots but one are filled. -/
def HasRoom (t : Table α) : Prop :=
  t.filled.length * 5 < (t.size - 1) * 3

theorem sound_empty (b : Nat) : (empty (2 ^ b) : Table α).Sound :=
  ⟨⟨b, rfl⟩, nofun, List.nodup_nil⟩

theorem hasRoom_empty : (empty 8 : Table α).HasRoom := by
  change 0 * 5 < (8 - 1) * 3
  decide

theorem HasRoom.length_lt (h : t.HasRoom) : t.filled.length < t.size := by
  unfold HasRoom at h
  omega

theorem taken_eq_false_iff {slot : Nat} :
    t.taken slot = false ↔ slot ∉ t.filled.map Prod.fst := by
  simp only [taken, List.any_eq_false, beq_iff_eq, List.mem_map, not_exists, not_and]

/-- A table with fewer elements than slots has a free one. -/
theorem exists_free (room : t.filled.length < t.size) :
    ∃ slot < t.size, t.taken slot = false := by
  have fewer : (t.filled.map Prod.fst).toFinset.card < (Finset.range t.size).card := by
    rw [Finset.card_range]
    exact (List.toFinset_card_le _).trans_lt (by rwa [List.length_map])
  obtain ⟨slot, hslot, free⟩ := Finset.exists_mem_notMem_of_card_lt_card fewer
  exact ⟨slot, Finset.mem_range.1 hslot, taken_eq_false_iff.2 (mt List.mem_toFinset.2 free)⟩

/-- The slot for a hash is one of the table, and a free one if there is any. -/
theorem slotFor_free (sound : t.Sound) (room : t.filled.length < t.size) (hash : UInt64) :
    t.slotFor hash.toNat < t.size ∧ t.taken (t.slotFor hash.toNat) = false := by
  obtain ⟨b, size⟩ := sound.size
  obtain ⟨slot, hslot, free⟩ := exists_free room
  unfold slotFor
  rw [size] at hslot ⊢
  exact ⟨freeSlot_lt (Nat.mod_lt _ (Nat.two_pow_pos b)) _ _,
    taken_freeSlot hash.toNat_lt hslot free⟩

/-! ### Steps -/

variable (hash : α → UInt64) (a : α) (as : List α)

theorem length_put (t : Table α) : (t.put hash a).filled.length = t.filled.length + 1 :=
  List.length_cons

theorem sound_put (sound : t.Sound) (room : t.filled.length < t.size) : (t.put hash a).Sound := by
  obtain ⟨within, free⟩ := slotFor_free sound room (hash a)
  exact {
    size := sound.size
    within := List.forall_mem_cons.2 ⟨within, sound.within⟩
    distinct := List.nodup_cons.2 ⟨taken_eq_false_iff.1 free, sound.distinct⟩ }

/-- Elements that there are slots for are put in soundly, and the table keeps its size. -/
theorem sound_foldl_put (sound : t.Sound)
    (room : t.filled.length + as.length ≤ t.size) :
    (as.foldl (put hash) t).Sound ∧ (as.foldl (put hash) t).size = t.size ∧
      (as.foldl (put hash) t).filled.length = t.filled.length + as.length := by
  induction as generalizing t with
  | nil => exact ⟨sound, rfl, rfl⟩
  | cons a as ih =>
    rw [List.length_cons, Nat.add_comm as.length, ← Nat.add_assoc] at room ⊢
    have put : (t.put hash a).Sound := sound_put hash a sound (by omega)
    rw [← length_put hash a t] at room ⊢
    exact ih put room

theorem sizeFor_eq (count : Nat) :
    sizeFor count = 2 ^ ((if 50000 < count then count * 2 else count * 4).log2 + 1) :=
  Nat.one_shiftLeft _

theorem two_mul_lt_sizeFor (count : Nat) : count * 2 < sizeFor count := by
  rw [sizeFor_eq]
  refine Nat.lt_of_le_of_lt ?_ Nat.lt_log2_self
  split <;> omega

theorem one_lt_sizeFor (count : Nat) : 1 < sizeFor count := by
  rw [sizeFor_eq]
  exact Nat.one_lt_two_pow (Nat.succ_ne_zero _)

theorem sound_empty_sizeFor (count : Nat) : (empty (sizeFor count) : Table α).Sound := by
  rw [sizeFor_eq]
  exact sound_empty _

theorem length_walk (t : Table α) : t.walk.length = t.filled.length :=
  (walk_perm t).length_eq.trans (List.length_map ..)

theorem sound_makeRoom (sound : t.Sound) : (t.makeRoom hash).Sound ∧ (t.makeRoom hash).HasRoom := by
  unfold makeRoom
  split
  · rename_i room
    exact ⟨sound, room⟩
  · -- twice as many slots as elements are more than three fifths of them take
    have larger := two_mul_lt_sizeFor t.filled.length
    have slots := one_lt_sizeFor t.filled.length
    have room : 0 + t.walk.length ≤ sizeFor t.filled.length := by
      rw [length_walk]
      omega
    obtain ⟨sound, size, length⟩ :=
      sound_foldl_put hash t.walk (sound_empty_sizeFor t.filled.length) room
    refine ⟨sound, ?_⟩
    unfold HasRoom
    rw [size, length, length_walk]
    change (0 + t.filled.length) * 5 < (sizeFor t.filled.length - 1) * 3
    omega

theorem sound_add (sound : t.Sound) (room : t.HasRoom) :
    (t.add hash a).Sound ∧ (t.add hash a).HasRoom :=
  sound_makeRoom hash (sound_put hash a sound room.length_lt)

/-! ### Sets -/

theorem sound_foldl_add (sound : t.Sound) (room : t.HasRoom) :
    (as.foldl (add hash) t).Sound ∧ (as.foldl (add hash) t).HasRoom := by
  induction as generalizing t with
  | nil => exact ⟨sound, room⟩
  | cons a as ih =>
    obtain ⟨sound, room⟩ := sound_add hash a sound room
    exact ih sound room

/-- Each element of a set has a slot of its own, and there is room for the next one. -/
theorem sound_ofList : (ofList hash as).Sound ∧ (ofList hash as).HasRoom :=
  sound_foldl_add hash as (sound_empty 3) hasRoom_empty

theorem orders_isBefore : Sorting.Orders (@isBefore α) fun _ => True where
  asymm := by
    intro f g _ _ h
    have := of_decide_eq_true h
    exact decide_eq_false (by omega)
  trans := by
    intro f g k _ _ _ hfg hgk
    have := of_decide_eq_false hfg
    have := of_decide_eq_false hgk
    exact decide_eq_false (by omega)

/-- Elements in slots of their own are in strictly ascending order when they are sorted. -/
theorem pairwise_sort {filled : List (Nat × α)} (distinct : (filled.map Prod.fst).Nodup) :
    (Sorting.sort isBefore filled).Pairwise fun f g => f.1 < g.1 := by
  have order : Sorting.InOrder isBefore (Sorting.sort isBefore filled) :=
    orders_isBefore.inOrder_sort fun _ _ => trivial
  have slots : (Sorting.sort isBefore filled).Pairwise fun f g => f.1 ≠ g.1 := by
    rw [← List.pairwise_map]
    exact ((Sorting.sort_perm isBefore filled).map Prod.fst).nodup_iff.2 distinct
  refine List.Pairwise.imp₂ (fun f g h ne => ?_) order slots
  have := of_decide_eq_false h
  omega

end Table

/-- A set has its elements in the order of their slots, and no two of them in one. -/
theorem arrange_ascending (hash : α → UInt64) (as : List α) :
    ∃ filled : List (Nat × α), filled.Perm (Table.ofList hash as).filled ∧
      (filled.Pairwise fun f g => f.1 < g.1) ∧ arrange hash as = filled.map Prod.snd :=
  ⟨_, Sorting.sort_perm .., Table.pairwise_sort (Table.sound_ofList hash as).1.distinct, rfl⟩

end Worklog.HashOrder
