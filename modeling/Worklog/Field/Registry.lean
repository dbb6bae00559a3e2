import Worklog.Field.Handler

/-!
# The registry of fields

The fields that conditions may name. A registry holds at most one handler under a key, which is
the handler's name in lower case, and keeps its handlers in the order in which their keys were
first registered.
-/

namespace Worklog

/-- The fields that conditions may name, in the order of registration. -/
structure Registry where
  handlers : List FieldHandler
  keys_nodup : (handlers.map FieldHandler.key).Nodup

namespace Registry

/-- A registry without fields. -/
def empty : Registry := ⟨[], List.nodup_nil⟩

/-- The handler of a name, in any letter case. -/
def get? (r : Registry) (name : String) : Option FieldHandler :=
  r.handlers.find? fun h => h.key == Text.lower name

/-- The handler of a name that must be known. -/
def get (r : Registry) (name : String) : Except Failure FieldHandler :=
  match r.get? name with
  | some h => .ok h
  | none => .error (.unknownKey name)

/-- Whether there is a handler under a key. -/
def hasKey (r : Registry) (key : String) : Bool :=
  key ∈ r.handlers.map FieldHandler.key

/-- Whether a name is known, in any letter case. -/
def contains (r : Registry) (name : String) : Bool :=
  r.hasKey (Text.lower name)

/-- The number of fields. -/
def size (r : Registry) : Nat :=
  r.handlers.length

/-- The keys in ascending order. -/
def names (r : Registry) : List String :=
  Sorting.sort (fun a b => decide (a < b)) (r.handlers.map FieldHandler.key)

/-- Puts a handler in the place of one with the same key. -/
def substitute (h g : FieldHandler) : FieldHandler :=
  if g.key = h.key then h else g

theorem map_key_substitute (h : FieldHandler) (hs : List FieldHandler) :
    (hs.map (substitute h)).map FieldHandler.key = hs.map FieldHandler.key := by
  rw [List.map_map]
  refine List.map_congr_left fun g _ => ?_
  by_cases hg : g.key = h.key <;> simp [substitute, hg]

/-- The registry with a handler in the place of the one with its key. -/
def replaced (r : Registry) (h : FieldHandler) : Registry :=
  ⟨r.handlers.map (substitute h), by rw [map_key_substitute]; exact r.keys_nodup⟩

/-- The registry with a handler under a new key. -/
def added (r : Registry) (h : FieldHandler) (new : ¬ r.hasKey h.key) : Registry :=
  ⟨r.handlers ++ [h], by
    rw [List.map_append, List.map_singleton, List.nodup_append]
    refine ⟨r.keys_nodup, by simp, ?_⟩
    intro a ha b hb
    rw [List.mem_singleton] at hb
    subst hb
    rintro rfl
    exact new (decide_eq_true ha)⟩

/-- Registers a handler; a key that is taken is refused unless its handler is to be replaced. -/
def register (r : Registry) (h : FieldHandler) (replace : Bool) : Except Failure Registry :=
  if taken : r.hasKey h.key then
    if replace then .ok (r.replaced h) else .error (.fieldTaken h.key)
  else .ok (r.added h taken)

/-- The registry without the field of a name. -/
def unregister (r : Registry) (name : String) : Registry :=
  ⟨r.handlers.filter fun h => h.key != Text.lower name,
    r.keys_nodup.sublist (List.filter_sublist.map _)⟩

/-- Registers handlers one after the other; those before a refused one stay registered. -/
def registerAll (r : Registry) (replace : Bool) : List FieldHandler → Registry × Option Failure
  | [] => (r, none)
  | h :: hs =>
    match r.register h replace with
    | .ok r => registerAll r replace hs
    | .error e => (r, some e)

/-- A registry of its own with the same handlers. -/
def copy (r : Registry) : Registry × Option Failure :=
  empty.registerAll false r.handlers

/-- The handlers of the language's own fields. -/
def standardHandlers : List FieldHandler :=
  [.year, .month, .project, .date, .service, .category, .utilization, .value].map
    FieldHandler.standard

/-- The handlers of the fields that registries may add. -/
def entryHandlers : List FieldHandler :=
  [.client, .hours].map FieldHandler.standard

/-- The registry of the language's own fields. -/
def standard : Registry :=
  (empty.registerAll false standardHandlers).1

/-- An edit of a registry. -/
inductive Edit where
  | clear
  | addEntryFields (replace : Bool)
  | unregister (name : String)
  | register (like : Rule) (changes : FieldHandler.Changes) (replace : Bool)

/-- The registry after an edit, and the edit's failure if it has one. -/
def edit (r : Registry) : Edit → Registry × Option Failure
  | .clear => (empty, none)
  | .addEntryFields replace => r.registerAll replace entryHandlers
  | .unregister name => (r.unregister name, none)
  | .register like changes replace =>
    match (FieldHandler.standard like).change changes with
    | .ok h => r.registerAll replace [h]
    | .error e => (r, some e)

/-- The registry after edits, unless one of them fails. -/
def editAll (r : Registry) : List Edit → Except Failure Registry
  | [] => .ok r
  | e :: es =>
    match r.edit e with
    | (r, none) => editAll r es
    | (_, some failure) => .error failure

end Registry

end Worklog
