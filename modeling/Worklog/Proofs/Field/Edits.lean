import Worklog.Proofs.Field.Registry

/-!
# Edits that fail

Handlers are registered one after the other, and those before a refused one stay registered
(`Registry.exists_refused`). A single handler that is refused therefore leaves a registry as it was.
So does any other edit that fails, except one: entry fields are added as `client` and then `hours`,
and where only the second is taken the first is there to stay (`Registry.AddsHalf`). Apart from
this, failures leave no trace in a registry (`Registry.failures_leave_no_trace`).
-/

namespace Worklog

/-- Any handler can be had as a changed copy of the one that its rule comes with. -/
theorem FieldHandler.exists_change (h : FieldHandler) : ∃ c, (standard h.rule).change c = .ok h :=
  ⟨⟨some h.name, some h.operators, some h.rangeCapable, some h.temporal, some h.pushed⟩,
    dif_pos h.pushed_pushable⟩

namespace Registry

theorem ext {r r' : Registry} (h : r.handlers = r'.handlers) : r = r' := by
  cases r
  cases r'
  cases h
  rfl

/-! ## Registering -/

theorem register_eq_error_iff {r : Registry} {h : FieldHandler} {replace : Bool} {f : Failure} :
    r.register h replace = .error f ↔
      r.hasKey h.key = true ∧ replace = false ∧ f = .fieldTaken h.key := by
  unfold register
  split
  · rename_i taken
    cases replace with
    | false => simp [taken, eq_comm]
    | true => simp
  · rename_i taken
    simp [taken]

theorem handlers_of_register {r r' : Registry} {h : FieldHandler}
    (registered : r.register h false = .ok r') :
    r.hasKey h.key = false ∧ r'.handlers = r.handlers ++ [h] := by
  unfold register at registered
  split at registered
  · cases registered
  · rename_i taken
    cases registered
    exact ⟨Bool.eq_false_iff.2 taken, rfl⟩

theorem hasKey_of_register {r r' : Registry} {h : FieldHandler}
    (registered : r.register h false = .ok r') {key : String} (other : key ≠ h.key) :
    r'.hasKey key = r.hasKey key := by
  rw [hasKey, hasKey, (handlers_of_register registered).2]
  simp [other]

theorem registerAll_cons_of_ok {r r' : Registry} {h : FieldHandler} {replace : Bool}
    (registered : r.register h replace = .ok r') (hs : List FieldHandler) :
    r.registerAll replace (h :: hs) = r'.registerAll replace hs := by
  rw [registerAll, registered]

theorem registerAll_cons_of_error {r : Registry} {h : FieldHandler} {replace : Bool} {f : Failure}
    (refused : r.register h replace = .error f) (hs : List FieldHandler) :
    r.registerAll replace (h :: hs) = (r, some f) := by
  rw [registerAll, refused]

theorem handlers_of_registerAll {r : Registry} {hs : List FieldHandler}
    (registered : (r.registerAll false hs).2 = none) :
    (r.registerAll false hs).1.handlers = r.handlers ++ hs := by
  induction hs generalizing r with
  | nil => exact (List.append_nil r.handlers).symm
  | cons h hs ih =>
    cases first : r.register h false with
    | ok r' =>
      rw [registerAll_cons_of_ok first] at registered ⊢
      rw [ih registered, (handlers_of_register first).2, List.append_assoc, List.singleton_append]
    | error f =>
      rw [registerAll_cons_of_error first] at registered
      cases registered

/-- If one of several handlers is refused, those before it are registered, those after are not. -/
theorem exists_refused {r : Registry} {replace : Bool} {hs : List FieldHandler} {f : Failure}
    (failed : (r.registerAll replace hs).2 = some f) :
    ∃ before h after, hs = before ++ h :: after ∧
      r.registerAll replace before = ((r.registerAll replace hs).1, none) ∧
      (r.registerAll replace hs).1.register h replace = .error f := by
  induction hs generalizing r with
  | nil => cases failed
  | cons h hs ih =>
    cases registered : r.register h replace with
    | ok r' =>
      rw [registerAll_cons_of_ok registered] at failed ⊢
      obtain ⟨before, g, after, rfl, kept, refused⟩ := ih failed
      refine ⟨h :: before, g, after, rfl, ?_, refused⟩
      rw [registerAll_cons_of_ok registered, kept]
    | error f' =>
      rw [registerAll_cons_of_error registered] at failed ⊢
      cases failed
      exact ⟨[], h, hs, rfl, rfl, registered⟩

/-- Handlers of different names are registered in their order. -/
theorem registerAll_of_nodup {r : Registry} {hs : List FieldHandler}
    (nodup : ((r.handlers ++ hs).map FieldHandler.key).Nodup) :
    r.registerAll false hs = (⟨r.handlers ++ hs, nodup⟩, none) := by
  induction hs generalizing r with
  | nil => exact congrArg (·, none) (ext (List.append_nil _).symm)
  | cons h hs ih =>
    cases registered : r.register h false with
    | ok r' =>
      have handlers := (handlers_of_register registered).2
      have together : r'.handlers ++ hs = r.handlers ++ h :: hs := by
        rw [handlers, List.append_assoc, List.singleton_append]
      rw [registerAll_cons_of_ok registered, ih (together ▸ nodup)]
      exact congrArg (·, none) (ext together)
    | error f =>
      have taken := (register_eq_error_iff.1 registered).1
      rw [List.map_append, List.nodup_append] at nodup
      exact absurd rfl (nodup.2.2 h.key (of_decide_eq_true taken) h.key (List.mem_cons_self ..))

/-- A copy of a registry has its handlers in their order. -/
theorem copy_eq (r : Registry) : r.copy = (r, none) :=
  registerAll_of_nodup (r := empty) r.keys_nodup

/-! ## Steps -/

/-- What is done to a registry: it is edited, or given up for a copy. -/
inductive Step where
  | edit (e : Edit)
  | copy

/-- The registry after a step, and the step's failure if it has one. -/
def step (r : Registry) : Step → Registry × Option Failure
  | .edit e => r.edit e
  | .copy => r.copy

/-- The registry after steps, whether or not they fail. -/
def run (r : Registry) (steps : List Step) : Registry :=
  steps.foldl (fun r s => (r.step s).1) r

/-- Whether a step adds the first of the entry fields and fails at the second. -/
def AddsHalf (r : Registry) (s : Step) : Prop :=
  s = .edit (.addEntryFields false) ∧ r.contains "client" = false ∧ r.contains "hours" = true

/-- What is left of a step that fails: nothing at all, or one of two fields. -/
inductive Leaves (r : Registry) (s : Step) (f : Failure) : Prop where
  | nothing (whole : ¬ r.AddsHalf s) (same : (r.step s).1 = r)
  | client (half : r.AddsHalf s) (failure_eq : f = .fieldTaken "hours")
    (handlers_eq : (r.step s).1.handlers = r.handlers ++ [FieldHandler.standard .client])

theorem leaves_addEntryFields {r : Registry} {replace : Bool} {f : Failure}
    (failed : (r.step (.edit (.addEntryFields replace))).2 = some f) :
    r.Leaves (.edit (.addEntryFields replace)) f := by
  have added : (r.registerAll replace entryHandlers).2 = some f := failed
  obtain ⟨before, h, after, cut, kept, refused⟩ := exists_refused added
  obtain ⟨taken, rfl, rfl⟩ := register_eq_error_iff.1 refused
  rcases before with _ | ⟨g, _ | ⟨g', before⟩⟩
  · -- The first field is taken, and nothing has been registered yet.
    obtain ⟨rfl, -⟩ := List.cons.inj cut
    have same := (Prod.mk.inj kept).1
    rw [← same] at taken
    exact .nothing (fun half => Bool.false_ne_true (half.2.1.symm.trans taken)) same.symm
  · obtain ⟨first, rest⟩ := List.cons.inj cut
    obtain ⟨rfl, -⟩ := List.cons.inj rest
    rw [← first] at kept
    cases registered : r.register (.standard .client) false with
    | ok r' =>
      rw [registerAll_cons_of_ok registered] at kept
      have result := (Prod.mk.inj kept).1
      rw [← result, hasKey_of_register registered (by decide +kernel)] at taken
      obtain ⟨free, handlers⟩ := handlers_of_register registered
      exact .client ⟨rfl, free, taken⟩ rfl (result ▸ handlers)
    | error f =>
      rw [registerAll_cons_of_error registered] at kept
      cases (Prod.mk.inj kept).2
  · -- There are two fields only.
    have count := congrArg List.length cut
    simp only [entryHandlers, List.length_map, List.length_append, List.length_cons,
      List.length_nil] at count
    omega

theorem leaves_of_failed {r : Registry} {s : Step} {f : Failure}
    (failed : (r.step s).2 = some f) : r.Leaves s f := by
  rcases s with (_ | replace | name | ⟨like, changes, replace⟩) | _
  · cases failed
  · exact leaves_addEntryFields failed
  · cases failed
  · refine .nothing (fun half => nomatch half.1) ?_
    cases changed : (FieldHandler.standard like).change changes with
    | ok h =>
      have result :
          r.step (.edit (.register like changes replace)) = r.registerAll replace [h] := by
        simp only [step, edit, changed]
      rw [result] at failed ⊢
      -- No handler comes before the only one, so none has been registered.
      obtain ⟨before, g, after, cut, kept, -⟩ := exists_refused failed
      rcases List.singleton_eq_append_iff.1 cut with ⟨rfl, -⟩ | ⟨-, none⟩
      · exact (Prod.mk.inj kept).1.symm
      · cases none
    | error f =>
      simp only [step, edit, changed]
  · have copied : (r.step .copy).2 = none := congrArg Prod.snd r.copy_eq
    cases copied.symm.trans failed

/-- Whatever steps have led to a registry, edits that do not fail lead there too. -/
theorem exists_editAll_eq_run (r : Registry) (steps : List Step) :
    ∃ edits, r.editAll edits = .ok (r.run steps) := by
  induction steps generalizing r with
  | nil => exact ⟨[], rfl⟩
  | cons s steps ih =>
    have later : r.run (s :: steps) = (r.step s).1.run steps := rfl
    obtain ⟨edits, ih⟩ := ih (r.step s).1
    rw [later]
    cases failed : (r.step s).2 with
    | none =>
      cases s with
      | edit e =>
        have edited : r.edit e = ((r.step (.edit e)).1, none) := Prod.ext rfl failed
        exact ⟨e :: edits, by rw [editAll, edited]; exact ih⟩
      | copy =>
        have copied : r.step .copy = (r, none) := r.copy_eq
        rw [copied] at ih ⊢
        exact ⟨edits, ih⟩
    | some f =>
      rcases leaves_of_failed failed with ⟨-, same⟩ | ⟨⟨-, free, -⟩, -, handlers⟩
      · rw [same] at ih ⊢
        exact ⟨edits, ih⟩
      · refine ⟨.register .client {} false :: edits, ?_⟩
        cases registered : r.register (.standard .client) false with
        | ok r' =>
          have same : r' = (r.step s).1 :=
            ext ((handlers_of_register registered).2.trans handlers.symm)
          have edited : r.edit (.register .client {} false) = (r', none) :=
            registerAll_cons_of_ok registered []
          rw [editAll, edited, same]
          exact ih
        | error f' =>
          have taken := (register_eq_error_iff.1 registered).1
          exact absurd (free.symm.trans taken) Bool.false_ne_true

/--
Of steps that fail there is no trace in a registry: steps that do not fail lead to it as well, and a
further one that fails leaves it as it is. The exception is a step that adds half of the entry
fields.
-/
theorem failures_leave_no_trace (start : Registry) (steps : List Step) :
    (∃ edits, start.editAll edits = .ok (start.run steps)) ∧
    ∀ s f, ((start.run steps).step s).2 = some f → (start.run steps).Leaves s f :=
  ⟨exists_editAll_eq_run start steps, fun _ _ => leaves_of_failed⟩

/-- Entry fields that have been added are refused a second time, and all of them stay. -/
theorem failures_leave_no_trace_twice :
    let r := standard.run [.edit (.addEntryFields false)]
    let again := r.step (.edit (.addEntryFields false))
    again.2 = some (.fieldTaken "client") ∧ again.1 = r := by
  intro r again
  have failed : again.2 = some (.fieldTaken "client") := by decide +kernel
  refine ⟨failed, ?_⟩
  rcases (failures_leave_no_trace standard _).2 _ _ failed with ⟨-, same⟩ | ⟨-, other, -⟩
  · exact same
  · exact absurd other (by decide)

/-- Where `client` has been removed but `hours` has not, adding both fails and brings it back. -/
theorem exists_half_added :
    let r := standard.run [.edit (.addEntryFields false), .edit (.unregister "client")]
    let again := r.step (.edit (.addEntryFields false))
    again.2 = some (.fieldTaken "hours") ∧ "client" ∉ r.names ∧ "client" ∈ again.1.names := by
  decide +kernel

end Registry

end Worklog
