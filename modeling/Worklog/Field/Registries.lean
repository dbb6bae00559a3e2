import Worklog.Field.Registry

/-!
# Registries side by side

Several registries may be in use at once, each known by its place among them. One that is made, of
handlers or as a copy of another, takes the next place, and the others are edited where they are.
What fails leaves all of them as they were.
-/

namespace Worklog.Registries

/-- What is done with registries: one is made of handlers, edited in its place, or copied. -/
inductive Step where
  | create (handlers : List FieldHandler)
  | register (place : Nat) (h : FieldHandler) (replace : Bool)
  | unregister (place : Nat) (name : String)
  | copy (place : Nat)

/-- The registries and a new one, unless making it has failed. -/
def withNew (rs : List Registry) (made : Registry × Option Failure) :
    List Registry × Option Failure :=
  match made with
  | (r, none) => (rs ++ [r], none)
  | (_, some failure) => (rs, some failure)

/-- The registries with the one in a place edited, unless editing it fails. -/
def withEdited (rs : List Registry) (place : Nat) (edit : Registry → Except Failure Registry) :
    List Registry × Option Failure :=
  match rs[place]? with
  | none => (rs, none)
  | some r =>
    match edit r with
    | .ok r => (rs.set place r, none)
    | .error failure => (rs, some failure)

/-- The registries after a step, and the step's failure if it has one. -/
def step (rs : List Registry) : Step → List Registry × Option Failure
  | .create handlers => withNew rs (Registry.empty.registerAll false handlers)
  | .register place h replace => withEdited rs place fun r => r.register h replace
  | .unregister place name => withEdited rs place fun r => .ok (r.unregister name)
  | .copy place =>
    match rs[place]? with
    | none => (rs, none)
    | some r => withNew rs r.copy

/-- The registries after steps, whether or not they fail. -/
def run (rs : List Registry) : List Step → List Registry
  | [] => rs
  | s :: steps => run (step rs s).1 steps

end Worklog.Registries
