import Mathlib.Data.String.Basic
import Worklog.Field.Registry
import Worklog.Proofs.Sorting.Sorted

/-!
# Names in a registry

For a name in lower case it is the same to be listed and to be known (`mem_names_iff_contains`), and
names are listed in strictly ascending order (`pairwise_names`). What is found under a name is the
handler with its key, because no two handlers share one (`get?_eq_some_iff`). A handler that is
registered displaces the one that had its key and no other (`mem_register_iff`), so the handlers of
a registry are among those that were registered (`mem_of_mem_registerAll`).
-/

namespace Worklog.Registry

theorem mem_names_iff (r : Registry) (name : String) : name ∈ r.names ↔ r.hasKey name = true := by
  rw [names, (Sorting.sort_perm _ _).mem_iff, hasKey, decide_eq_true_iff]

theorem mem_names_iff_contains (r : Registry) {name : String} (h : Text.lower name = name) :
    name ∈ r.names ↔ r.contains name = true := by
  rw [mem_names_iff, contains, h]

theorem names_perm (r : Registry) : r.names.Perm (r.handlers.map FieldHandler.key) :=
  Sorting.sort_perm ..

theorem orders_lt : Sorting.Orders (fun a b : String => decide (a < b)) fun _ => True where
  asymm := fun _ _ h => decide_eq_false (lt_asymm (of_decide_eq_true h))
  trans := by
    intro a b c _ _ _ hab hbc
    rw [decide_eq_false_iff_not, not_lt] at hab hbc ⊢
    exact le_trans hab hbc

/-- The names are in strictly ascending order. -/
theorem pairwise_names (r : Registry) : r.names.Pairwise (· < ·) := by
  have order : r.names.Pairwise fun a b => decide (b < a) = false :=
    orders_lt.inOrder_sort fun _ _ => trivial
  have nodup : r.names.Pairwise (· ≠ ·) := r.names_perm.nodup_iff.2 r.keys_nodup
  refine order.imp₂ (fun a b below ne => lt_of_le_of_ne ?_ ne) nodup
  exact not_lt.1 (of_decide_eq_false below)

theorem names_ne_nil (r : Registry) (h : r.handlers ≠ []) : r.names ≠ [] := by
  obtain ⟨g, hg⟩ := List.exists_mem_of_ne_nil r.handlers h
  have listed : g.key ∈ r.names :=
    (r.mem_names_iff g.key).2 (decide_eq_true (List.mem_map_of_mem hg))
  exact List.ne_nil_of_mem listed

/-! ## Finding handlers -/

theorem mem_of_get? {r : Registry} {name : String} {h : FieldHandler}
    (found : r.get? name = some h) : h ∈ r.handlers :=
  List.mem_of_find?_eq_some found

theorem find?_key_of_mem {hs : List FieldHandler} (nodup : (hs.map FieldHandler.key).Nodup)
    {h : FieldHandler} (mem : h ∈ hs) : hs.find? (fun g => g.key == h.key) = some h := by
  induction hs with
  | nil => cases mem
  | cons g gs ih =>
    rw [List.map_cons, List.nodup_cons] at nodup
    rw [List.find?_cons]
    rcases List.mem_cons.1 mem with rfl | mem
    · rw [beq_self_eq_true]
    · have other : (g.key == h.key) = false := by
        refine beq_false_of_ne fun hk => nodup.1 ?_
        rw [hk]
        exact List.mem_map_of_mem mem
      rw [other]
      exact ih nodup.2 mem

/-- A handler is found under its own name. -/
theorem get?_name {r : Registry} {h : FieldHandler} (mem : h ∈ r.handlers) :
    r.get? h.name = some h :=
  find?_key_of_mem r.keys_nodup mem

/-- What is found under a name is the handler that has the name's key. -/
theorem get?_eq_some_iff {r : Registry} {name : String} {h : FieldHandler} :
    r.get? name = some h ↔ h ∈ r.handlers ∧ h.key = Text.lower name := by
  constructor
  · intro found
    refine ⟨mem_of_get? found, ?_⟩
    unfold get? at found
    have key := List.find?_some found
    exact beq_iff_eq.1 key
  · rintro ⟨mem, key⟩
    rw [get?, ← key]
    exact find?_key_of_mem r.keys_nodup mem

/-! ## Where handlers come from -/

/-- Registering a handler displaces the one that had its key. -/
theorem mem_register_iff {r r' : Registry} {h g : FieldHandler} {replace : Bool}
    (registered : r.register h replace = .ok r') :
    g ∈ r'.handlers ↔ g = h ∨ h.key ≠ g.key ∧ g ∈ r.handlers := by
  unfold register at registered
  split at registered
  · rename_i taken
    split at registered
    · cases registered
      rw [replaced, List.mem_map]
      constructor
      · rintro ⟨f, mem, rfl⟩
        unfold substitute
        split
        · exact .inl rfl
        · rename_i other
          exact .inr ⟨Ne.symm other, mem⟩
      · rintro (rfl | ⟨other, mem⟩)
        · obtain ⟨f, mem, key⟩ := List.mem_map.1 (of_decide_eq_true taken)
          exact ⟨f, mem, if_pos key⟩
        · exact ⟨g, mem, if_neg (Ne.symm other)⟩
    · cases registered
  · rename_i free
    cases registered
    rw [added, List.mem_append, List.mem_singleton, or_comm]
    refine or_congr_right ⟨fun mem => ⟨fun key => free ?_, mem⟩, And.right⟩
    exact decide_eq_true (List.mem_map.2 ⟨g, mem, key.symm⟩)

theorem mem_of_mem_register {r r' : Registry} {h : FieldHandler} {replace : Bool}
    (hr : r.register h replace = .ok r') : ∀ g ∈ r'.handlers, g ∈ r.handlers ∨ g = h :=
  fun _ hg => ((mem_register_iff hr).1 hg).symm.imp_left And.right

theorem mem_of_mem_registerAll {r : Registry} {replace : Bool} {hs : List FieldHandler} :
    ∀ g ∈ (r.registerAll replace hs).1.handlers, g ∈ r.handlers ∨ g ∈ hs := by
  induction hs generalizing r with
  | nil => exact fun g hg => .inl hg
  | cons h hs ih =>
    intro g hg
    unfold registerAll at hg
    split at hg
    · rename_i r' hr
      rcases ih g hg with hg | hg
      · rcases mem_of_mem_register hr g hg with hg | rfl
        · exact .inl hg
        · exact .inr (List.mem_cons_self ..)
      · exact .inr (List.mem_cons_of_mem h hg)
    · exact .inl hg

end Worklog.Registry
