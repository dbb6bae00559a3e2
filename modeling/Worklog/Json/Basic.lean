/-!
# JSON values

Entries, settings and filters arrive as JSON, and results leave as JSON. Whole numbers are kept
apart from binary64 numbers, because the two are accepted and written differently. Texts consist of
Unicode scalar values, here and everywhere: a lone surrogate, which an escape can name but UTF-8
cannot encode, is in none of them.
-/

namespace Worklog

/-- A JSON value. The members of an object keep their order. -/
inductive Json where
  | null
  | bool (b : Bool)
  | int (n : Int)
  | float (x : Float)
  | string (s : String)
  | array (items : List Json)
  | object (members : List (String × Json))
  deriving Inhabited

namespace Json

/-- The value under a key; of several members with one key the last one counts. -/
def lookup? (members : List (String × Json)) (key : String) : Option Json :=
  (members.reverse.find? fun m => m.1 == key).map Prod.snd

/-- A member of an object, or `none` for other values. -/
def member? (j : Json) (key : String) : Option Json :=
  match j with
  | .object members => lookup? members key
  | _ => none

/-- A value that may be absent; absence is written as null. -/
def ofOption {α : Type} (f : α → Json) : Option α → Json
  | some a => f a
  | none => .null

/-- A list of values. -/
def ofList {α : Type} (f : α → Json) (as : List α) : Json :=
  .array (as.map f)

end Json

end Worklog
