import Mathlib.Data.List.Induction
import Mathlib.Logic.Function.Basic
import Worklog.Field.Registries
import Worklog.Proofs.Field.Edits

/-!
# Registries and their pasts

The past of a registry is what has been registered and removed there so far; a copy has the past of
its model. A handler stands in a past if it has been registered and its key has not been touched
since (`Stands`). Every step keeps the handlers of each registry those that stand in its past
(`remembers_step`), and so does a run (`remembers_run`). Each registry is therefore a map from
names, in any letter case, to the handlers that stand (`IsMap`), whatever has been done to it and to
the others (`isMap_run`). What is done to one of them does not change another (`getElem?_run`).
-/

namespace Worklog.Registries

/-! ## Pasts -/

/-- What has been done to a registry. -/
inductive Event where
  | registered (h : FieldHandler)
  | unregistered (name : String)
  deriving DecidableEq

/-- The key that is touched. -/
def Event.key : Event → String
  | .registered h => h.key
  | .unregistered name => Text.lower name

/-- The handler has been registered, and its key has not been touched since. -/
def Stands (past : List Event) (h : FieldHandler) : Prop :=
  ∃ before after, past = before ++ .registered h :: after ∧ ∀ e ∈ after, e.key ≠ h.key

theorem not_stands_nil {h : FieldHandler} : ¬ Stands [] h := by
  rintro ⟨before, after, split, -⟩
  exact List.append_ne_nil_of_right_ne_nil before (List.cons_ne_nil _ after) split.symm

theorem stands_append_iff {past : List Event} {e : Event} {h : FieldHandler} :
    Stands (past ++ [e]) h ↔ e = .registered h ∨ e.key ≠ h.key ∧ Stands past h := by
  constructor
  · rintro ⟨before, after, split, untouched⟩
    rcases List.eq_nil_or_concat after with rfl | ⟨after, last, rfl⟩
    · exact .inl (List.singleton_inj.1 (List.append_inj' split rfl).2)
    · rw [List.concat_eq_append, ← List.cons_append, ← List.append_assoc] at split
      obtain ⟨rfl, eq⟩ := List.append_inj' split rfl
      cases eq
      rw [List.concat_eq_append, List.forall_mem_append] at untouched
      exact .inr ⟨untouched.2 e (List.mem_singleton_self e), before, after, rfl, untouched.1⟩
  · rintro (rfl | ⟨other, before, after, rfl, untouched⟩)
    · exact ⟨past, [], rfl, nofun⟩
    · refine ⟨before, after ++ [e], by rw [List.append_assoc, List.cons_append], ?_⟩
      rw [List.forall_mem_append]
      exact ⟨untouched, List.forall_mem_singleton.2 other⟩

/-- Handlers with different keys that have been registered all stand. -/
theorem stands_registered_iff {hs : List FieldHandler} (nodup : (hs.map FieldHandler.key).Nodup)
    {h : FieldHandler} : Stands (hs.map .registered) h ↔ h ∈ hs := by
  induction hs using List.reverseRecOn with
  | nil => exact iff_of_false not_stands_nil (List.not_mem_nil)
  | append_singleton hs g ih =>
    rw [List.map_append, List.map_singleton, List.nodup_append] at nodup
    rw [List.map_append, List.map_singleton, stands_append_iff, ih nodup.1, List.mem_append,
      List.mem_singleton, or_comm]
    refine or_congr ⟨And.right, fun mem => ⟨fun key => ?_, mem⟩⟩ ⟨?_, ?_⟩
    · exact nodup.2.2 _ (List.mem_map_of_mem mem) _ (List.mem_singleton_self _) key.symm
    · rintro ⟨⟩
      rfl
    · rintro rfl
      rfl

/-- The past of each registry at the start: its handlers have been registered. -/
def origin (rs : List Registry) (place : Nat) : List Event :=
  match rs[place]? with
  | some r => r.handlers.map .registered
  | none => []

/-- The place of the registry that a step edits. -/
def Step.edits : Step → Option Nat
  | .register place .. | .unregister place _ => some place
  | .create _ | .copy _ => none

/-- The past of the registry that a step makes or edits. -/
def Step.pastAfter (pasts : Nat → List Event) : Step → List Event
  | .create handlers => handlers.map .registered
  | .register place h _ => pasts place ++ [.registered h]
  | .unregister place name => pasts place ++ [.unregistered name]
  | .copy place => pasts place

/-- The pasts with a new one for a place, unless what it would record has failed. -/
def amend (pasts : Nat → List Event) (place : Nat) (past : List Event) :
    Option Failure → Nat → List Event
  | none => Function.update pasts place past
  | some _ => pasts

/-- The past of each registry after a step; one that fails is not recorded. -/
def record (rs : List Registry) (pasts : Nat → List Event) (s : Step) : Nat → List Event :=
  amend pasts (s.edits.getD rs.length) (s.pastAfter pasts) (step rs s).2

/-- The past of each registry after steps. -/
def recordAll (rs : List Registry) (pasts : Nat → List Event) : List Step → Nat → List Event
  | [] => pasts
  | s :: steps => recordAll (step rs s).1 (record rs pasts s) steps

/-! ## Handlers that stand -/

/-- The handlers of the registry are those that stand. -/
def Remembers (r : Registry) (past : List Event) : Prop :=
  ∀ h, h ∈ r.handlers ↔ Stands past h

/-- Each registry remembers its past. -/
def AllRemember (rs : List Registry) (pasts : Nat → List Event) : Prop :=
  ∀ place r, rs[place]? = some r → Remembers r (pasts place)

section Remembering

variable {r r' : Registry} {past : List Event}

theorem remembers_registered (r : Registry) : Remembers r (r.handlers.map .registered) :=
  fun _ => (stands_registered_iff r.keys_nodup).symm

theorem remembers_register {h : FieldHandler} {replace : Bool} (remembers : Remembers r past)
    (registered : r.register h replace = .ok r') : Remembers r' (past ++ [.registered h]) := by
  intro g
  rw [Registry.mem_register_iff registered, stands_append_iff, remembers g]
  refine or_congr_left ⟨?_, ?_⟩
  · rintro rfl
    rfl
  · rintro ⟨⟩
    rfl

theorem remembers_unregister (remembers : Remembers r past) (name : String) :
    Remembers (r.unregister name) (past ++ [.unregistered name]) := by
  intro g
  have other : (g.key != Text.lower name) = true ↔ Text.lower name ≠ g.key :=
    bne_iff_ne.trans ne_comm
  rw [Registry.unregister, List.mem_filter, stands_append_iff, remembers g, other, and_comm]
  exact (or_iff_right nofun).symm

end Remembering

section Steps

variable {rs : List Registry} {pasts : Nat → List Event}

theorem allRemember_origin (rs : List Registry) : AllRemember rs (origin rs) := by
  intro place r present
  rw [origin, present]
  exact remembers_registered r

theorem allRemember_append (remember : AllRemember rs pasts) {r : Registry} {past : List Event}
    (new : Remembers r past) : AllRemember (rs ++ [r]) (Function.update pasts rs.length past) := by
  intro place q present
  rcases eq_or_ne place rs.length with rfl | other
  · rw [List.getElem?_concat_length] at present
    cases present
    rw [Function.update_self]
    exact new
  · have inside : place < rs.length := by
      have within := (List.getElem?_eq_some_iff.1 present).1
      rw [List.length_append, List.length_singleton] at within
      omega
    rw [List.getElem?_append_left inside] at present
    rw [Function.update_of_ne other]
    exact remember place q present

theorem allRemember_set (remember : AllRemember rs pasts) {r : Registry} {past : List Event}
    (place : Nat) (edited : Remembers r past) :
    AllRemember (rs.set place r) (Function.update pasts place past) := by
  intro place' q present
  rcases eq_or_ne place' place with rfl | other
  · rw [List.getElem?_set_self'] at present
    obtain ⟨-, -, rfl⟩ := Option.map_eq_some_iff.1 present
    rw [Function.update_self]
    exact edited
  · rw [List.getElem?_set_ne other.symm] at present
    rw [Function.update_of_ne other]
    exact remember place' q present

/-- Where there is no registry it does not matter what is recorded. -/
theorem allRemember_absent (remember : AllRemember rs pasts) {place : Nat}
    (absent : rs[place]? = none) (past : List Event) :
    AllRemember rs (Function.update pasts place past) := by
  intro place' q present
  have other : place' ≠ place := by
    rintro rfl
    cases absent.symm.trans present
  rw [Function.update_of_ne other]
  exact remember place' q present

theorem allRemember_withNew (remember : AllRemember rs pasts) {made : Registry × Option Failure}
    {past : List Event} (new : made.2 = none → Remembers made.1 past) :
    AllRemember (withNew rs made).1 (amend pasts rs.length past (withNew rs made).2) := by
  obtain ⟨r, _ | f⟩ := made
  · exact allRemember_append remember (new rfl)
  · exact remember

theorem allRemember_withEdited (remember : AllRemember rs pasts) {place : Nat}
    {edit : Registry → Except Failure Registry} {past : List Event}
    (edited : ∀ r r', rs[place]? = some r → edit r = .ok r' → Remembers r' past) :
    AllRemember (withEdited rs place edit).1
      (amend pasts place past (withEdited rs place edit).2) := by
  unfold withEdited
  cases present : rs[place]? with
  | none => exact allRemember_absent remember present past
  | some r =>
    cases done : edit r with
    | ok r' =>
      simp only [done]
      exact allRemember_set remember place (edited r r' present done)
    | error f =>
      simp only [done]
      exact remember

/-- A step keeps the handlers of each registry those that stand in its past. -/
theorem remembers_step (remember : AllRemember rs pasts) (s : Step) :
    AllRemember (step rs s).1 (record rs pasts s) := by
  cases s with
  | create handlers =>
    refine allRemember_withNew remember fun made => ?_
    have remembers := remembers_registered (Registry.empty.registerAll false handlers).1
    rw [Registry.handlers_of_registerAll made] at remembers
    exact remembers
  | register place h replace =>
    exact allRemember_withEdited remember fun r r' present registered =>
      remembers_register (remember place r present) registered
  | unregister place name =>
    refine allRemember_withEdited remember fun r r' present removed => ?_
    cases removed
    exact remembers_unregister (remember place r present) name
  | copy place =>
    rw [record, step]
    cases present : rs[place]? with
    | none => exact allRemember_absent remember (List.getElem?_eq_none le_rfl) _
    | some r =>
      refine allRemember_withNew remember fun _ => ?_
      rw [r.copy_eq]
      exact remember place r present

/-- So does a run, whatever its steps are. -/
theorem remembers_run (remember : AllRemember rs pasts) (steps : List Step) :
    AllRemember (run rs steps) (recordAll rs pasts steps) := by
  induction steps generalizing rs pasts with
  | nil => exact remember
  | cons s steps ih => exact ih (remembers_step remember s)

/-! ## Other places -/

theorem getElem?_withNew {place : Nat} {r : Registry} (present : rs[place]? = some r)
    (made : Registry × Option Failure) : (withNew rs made).1[place]? = some r := by
  obtain ⟨q, _ | f⟩ := made
  · rw [withNew, List.getElem?_append_left (List.getElem?_eq_some_iff.1 present).1]
    exact present
  · exact present

theorem getElem?_withEdited {place place' : Nat} {r : Registry} (present : rs[place]? = some r)
    (other : place' ≠ place) (edit : Registry → Except Failure Registry) :
    (withEdited rs place' edit).1[place]? = some r := by
  unfold withEdited
  split
  · exact present
  · split
    · rw [List.getElem?_set_ne other]
      exact present
    · exact present

/-- A step that does not edit a registry leaves it as it is. -/
theorem getElem?_step {place : Nat} {r : Registry} (present : rs[place]? = some r) {s : Step}
    (other : s.edits ≠ some place) : (step rs s).1[place]? = some r := by
  cases s with
  | create handlers => exact getElem?_withNew present _
  | register place' h replace =>
    exact getElem?_withEdited present (fun same => other (congrArg some same)) _
  | unregister place' name =>
    exact getElem?_withEdited present (fun same => other (congrArg some same)) _
  | copy place' =>
    rw [step]
    split
    · exact present
    · exact getElem?_withNew present _

theorem getElem?_run {place : Nat} {r : Registry} (present : rs[place]? = some r)
    {steps : List Step} (others : ∀ s ∈ steps, s.edits ≠ some place) :
    (run rs steps)[place]? = some r := by
  induction steps generalizing rs with
  | nil => exact present
  | cons s steps ih =>
    obtain ⟨first, later⟩ := List.forall_mem_cons.1 others
    exact ih (getElem?_step present first) later

end Steps

/-! ## Maps -/

/--
The registry is a map from names, in any letter case, to the handlers that stand in the past: each
of its handlers is found, and there is one name for each of them in ascending order.
-/
structure IsMap (r : Registry) (past : List Event) : Prop where
  get?_iff : ∀ name h, r.get? name = some h ↔ Stands past h ∧ h.key = Text.lower name
  get?_of_mem : ∀ h ∈ r.handlers, ∀ name, Text.lower name = Text.lower h.name →
    r.get? name = some h
  pairwise_names : r.names.Pairwise (· < ·)
  names_perm : r.names.Perm (r.handlers.map FieldHandler.key)

theorem isMap_of_remembers {r : Registry} {past : List Event} (remembers : Remembers r past) :
    IsMap r past where
  get?_iff _ h := Registry.get?_eq_some_iff.trans (and_congr_left' (remembers h))
  get?_of_mem _ mem _ same := Registry.get?_eq_some_iff.2 ⟨mem, same.symm⟩
  pairwise_names := r.pairwise_names
  names_perm := r.names_perm

/-- Registering fails just if the name is known, in any letter case, and not to be replaced. -/
theorem step_register_eq_error_iff {rs : List Registry} {place : Nat} {r : Registry}
    (present : rs[place]? = some r) (h : FieldHandler) (replace : Bool) (f : Failure) :
    (step rs (.register place h replace)).2 = some f ↔
      r.contains h.name = true ∧ replace = false ∧ f = .fieldTaken h.key := by
  refine Iff.trans ?_ (Registry.register_eq_error_iff (r := r))
  rw [step, withEdited]
  simp only [present]
  cases registered : r.register h replace with
  | ok r' => simp
  | error f' => simp

/-- A copy is the same registry in a place of its own. -/
theorem step_copy {rs : List Registry} {place : Nat} {r : Registry}
    (present : rs[place]? = some r) : step rs (.copy place) = (rs ++ [r], none) := by
  rw [step, present]
  exact congrArg (withNew rs) r.copy_eq

/--
Whatever has been done to registries, each of them is a map from names to the handlers that stand in
its past. Only a name that is known is refused, unless it is to be replaced. A copy is never
refused, and from then on neither registry changes with edits of the other.
-/
theorem isMap_run (start : List Registry) (steps : List Step) {place : Nat} {r : Registry}
    (present : (run start steps)[place]? = some r) :
    let rs := run start steps
    IsMap r (recordAll start (origin start) steps place) ∧
    (∀ h replace f, (step rs (.register place h replace)).2 = some f ↔
      r.contains h.name = true ∧ replace = false ∧ f = .fieldTaken h.key) ∧
    step rs (.copy place) = (rs ++ [r], none) ∧
    ∀ more, ((∀ s ∈ more, s.edits ≠ some place) → (run (rs ++ [r]) more)[place]? = some r) ∧
      ((∀ s ∈ more, s.edits ≠ some rs.length) → (run (rs ++ [r]) more)[rs.length]? = some r) := by
  intro rs
  have here : (rs ++ [r])[place]? = some r := getElem?_withNew present (r, none)
  exact ⟨isMap_of_remembers (remembers_run (allRemember_origin start) steps place r present),
    step_register_eq_error_iff present, step_copy present,
    fun more => ⟨getElem?_run here, getElem?_run List.getElem?_concat_length⟩⟩

/--
A handler under the Kelvin sign is found as `k` and refused a second time; a copy that was made
before has none of it.
-/
theorem isMap_run_kelvin :
    let kelvin : FieldHandler := { FieldHandler.standard .client with name := "\u212A" }
    let rs := run [.standard] [.copy 0, .register 0 kelvin false]
    rs[1]? = some .standard ∧ ∃ r, rs[0]? = some r ∧ r.get? "k" = some kelvin ∧
      (step rs (.register 0 kelvin false)).2 = some (.fieldTaken kelvin.key) := by
  intro kelvin rs
  constructor
  · have first : (run [.standard] [])[0]? = some Registry.standard := rfl
    obtain ⟨-, -, copied, independent⟩ := isMap_run [.standard] [] first
    have later : rs = run ([.standard] ++ [.standard]) [.register 0 kelvin false] :=
      congrArg (fun made => run (Prod.fst made) [.register 0 kelvin false]) copied
    rw [later]
    refine (independent [.register 0 kelvin false]).2 fun s mem => ?_
    rw [List.mem_singleton.1 mem]
    exact nofun
  · obtain ⟨r, present⟩ : ∃ r, rs[0]? = some r :=
      Option.isSome_iff_exists.1 (by decide +kernel)
    obtain ⟨map, refused, -, -⟩ := isMap_run [.standard] _ present
    have past : recordAll [.standard] (origin [.standard])
        [.copy 0, .register 0 kelvin false] 0 =
        Registry.standard.handlers.map .registered ++ [.registered kelvin] := by
      decide +kernel
    have found : r.get? "k" = some kelvin :=
      (map.get?_iff "k" kelvin).2 ⟨⟨_, [], past, nofun⟩, by decide +kernel⟩
    refine ⟨r, present, found, (refused kelvin false _).2 ⟨?_, rfl, rfl⟩⟩
    have mem := Registry.mem_of_get? found
    exact decide_eq_true (List.mem_map_of_mem mem)

end Worklog.Registries
