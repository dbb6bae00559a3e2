import Worklog.Sorting

/-!
# The order of a hashed set

A set keeps its elements in a table of slots, a power of two in number. Each element takes the first
free slot that its hash leads to, and a table that is three fifths full makes room in a larger one.
Walking the slots gives the elements in an order of their own (`HashOrder.arrange`), which loses and
repeats none of them (`arrange_perm`).
-/

namespace Worklog.HashOrder

/-! ## Hashes -/

/-- Takes a further word into a hash. -/
def mix (acc word : UInt64) : UInt64 :=
  let sum := acc + word * 14029467366897019727
  (sum <<< 31 ||| sum >>> 33) * 11400714785074694791

/-- The hash of some words. -/
def ofWords (words : List UInt64) : UInt64 :=
  words.foldl mix 2870177450012600261 +
    (UInt64.ofNat words.length ^^^ 2870177450012600261 ^^^ 3527539)

/-! ## Slots -/

/-- The slots that are tried together: ten in a row, or one alone near the end of the table. -/
def block (size start : Nat) : List Nat :=
  if start + 9 < size then List.range' start 10 else [start]

/--
The first free slot, block by block. Each start follows from the one before and from what is left of
the hash, which is used up in thirteen rounds; from then on the starts go through all slots.
-/
def freeSlot (taken : Nat → Bool) (size : Nat) : (rounds start rest : Nat) → Nat
  | 0, start, _ => start
  | rounds + 1, start, rest =>
    match (block size start).find? fun slot => !taken slot with
    | some slot => slot
    | none =>
      let rest := rest / 32
      freeSlot taken size rounds ((start * 5 + 1 + rest) % size) rest

variable {α : Type}

/-- Elements in their slots. -/
structure Table (α : Type) where
  size : Nat
  filled : List (Nat × α)

namespace Table

/-- A table without elements. -/
def empty (size : Nat) : Table α := ⟨size, []⟩

/-- The slot has an element. -/
def taken (t : Table α) (slot : Nat) : Bool :=
  t.filled.any fun f => f.1 == slot

/-- The first free slot that a hash leads to. -/
def slotFor (t : Table α) (hash : Nat) : Nat :=
  freeSlot t.taken t.size (t.size + 13) (hash % t.size) hash

/-- Puts a new element into the first free slot for its hash. -/
def put (hash : α → UInt64) (t : Table α) (a : α) : Table α :=
  { t with filled := (t.slotFor (hash a).toNat, a) :: t.filled }

/-- Whether the first of two elements stands in the lower slot. -/
def isBefore (f g : Nat × α) : Bool :=
  f.1 < g.1

/-- The elements, slot by slot. -/
def walk (t : Table α) : List α :=
  (Sorting.sort isBefore t.filled).map Prod.snd

/-- The size of the larger table for a number of elements. -/
def sizeFor (count : Nat) : Nat :=
  1 <<< ((if 50000 < count then count * 2 else count * 4).log2 + 1)

/-- Makes room for further elements, if three fifths of the slots are filled. -/
def makeRoom (hash : α → UInt64) (t : Table α) : Table α :=
  if t.filled.length * 5 < (t.size - 1) * 3 then t
  else t.walk.foldl (put hash) (empty (sizeFor t.filled.length))

/-- Puts a new element in, and makes room for the next one. -/
def add (hash : α → UInt64) (t : Table α) (a : α) : Table α :=
  (t.put hash a).makeRoom hash

/-- The table of elements that are put in one after the other. -/
def ofList (hash : α → UInt64) (as : List α) : Table α :=
  as.foldl (add hash) (empty 8)

/-! ### What a table holds -/

theorem walk_perm (t : Table α) : t.walk.Perm (t.filled.map Prod.snd) :=
  (Sorting.sort_perm ..).map Prod.snd

theorem walk_empty (size : Nat) : (empty size : Table α).walk = [] :=
  List.perm_nil.1 (walk_perm _)

theorem walk_put (hash : α → UInt64) (t : Table α) (a : α) :
    (t.put hash a).walk.Perm (a :: t.walk) :=
  (walk_perm _).trans ((walk_perm t).symm.cons a)

/-- Steps that take one element each take all of a list. -/
theorem walk_foldl {step : Table α → α → Table α}
    (takes : ∀ t a, (step t a).walk.Perm (a :: t.walk)) (as : List α) (t : Table α) :
    (as.foldl step t).walk.Perm (as ++ t.walk) := by
  induction as generalizing t with
  | nil => exact .refl _
  | cons a as ih =>
    have first := (takes t a).append_left as
    exact (ih (step t a)).trans (first.trans List.perm_middle)

theorem walk_makeRoom (hash : α → UInt64) (t : Table α) : (t.makeRoom hash).walk.Perm t.walk := by
  unfold makeRoom
  split
  · exact .refl _
  · have all := walk_foldl (walk_put hash) t.walk (empty (sizeFor t.filled.length))
    rwa [walk_empty, List.append_nil] at all

theorem walk_add (hash : α → UInt64) (t : Table α) (a : α) :
    (t.add hash a).walk.Perm (a :: t.walk) :=
  (walk_makeRoom ..).trans (walk_put ..)

end Table

/-- The order in which a set has elements that are put into it one after the other. -/
def arrange (hash : α → UInt64) (as : List α) : List α :=
  (Table.ofList hash as).walk

/-- No element is lost, and none is repeated. -/
theorem arrange_perm (hash : α → UInt64) (as : List α) : (arrange hash as).Perm as := by
  have all := Table.walk_foldl (Table.walk_add hash) as (Table.empty 8)
  rwa [Table.walk_empty, List.append_nil] at all

end Worklog.HashOrder
