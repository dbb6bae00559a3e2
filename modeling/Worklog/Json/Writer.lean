import Worklog.Decimal.Layout
import Worklog.Json.Basic
import Worklog.Text.Hex

/-!
# Writing JSON

A `Style` settles what JSON leaves open: indentation, whether all characters but the printable
ones of ASCII are escaped, and the layout of numbers. Three styles are in use: `Style.ascii` for
normalized queries, `Style.report` for results, and `Style.compact` for the keys under which
results are kept.
-/

namespace Worklog.Json

/-- How JSON is laid out. -/
structure Style where
  /-- The spaces of one level, if every member stands on a line of its own. -/
  indent : Option Nat
  /-- Whether U+007F and the characters beyond ASCII are escaped. -/
  escapesUnicode : Bool
  numbers : Decimal.Layout

/-- The layout of numbers in results: in place from `0.00001` to below `1e+16`. -/
def reportNumbers : Decimal.Layout :=
  { least := -5
    limit := 16
    exponentWidth := 1
    infinity := "null"
    negativeInfinity := "null"
    nan := "null" }

/-- The style of normalized queries: indented, and in printable ASCII alone. -/
def Style.ascii : Style :=
  { indent := some 2
    escapesUnicode := true
    numbers :=
      { Decimal.plain with infinity := "Infinity", negativeInfinity := "-Infinity", nan := "NaN" } }

/-- The style of results: indented, with values that are not finite written as null. -/
def Style.report : Style :=
  { indent := some 2
    escapesUnicode := false
    numbers := reportNumbers }

/-- The style of keys: one line without blanks. -/
def Style.compact : Style :=
  { indent := none
    escapesUnicode := false
    numbers := reportNumbers }

/-- The escape of one UTF-16 code unit. -/
def unitEscape (n : Nat) : List Char :=
  '\\' :: 'u' :: Text.hexDigits 4 n

/-- The escape of a code point by one or two UTF-16 code units. -/
def codeEscape (n : Nat) : List Char :=
  if n < 0x10000 then unitEscape n
  else unitEscape (0xD800 + (n - 0x10000) / 0x400) ++ unitEscape (0xDC00 + (n - 0x10000) % 0x400)

/-- How a character stands inside a string. -/
def escapedChar (escapesUnicode : Bool) (c : Char) : List Char :=
  if c = '"' ∨ c = '\\' then ['\\', c]
  else if c = '\n' then ['\\', 'n']
  else if c = '\r' then ['\\', 'r']
  else if c = '\t' then ['\\', 't']
  else if c = '\x08' then ['\\', 'b']
  else if c = '\x0c' then ['\\', 'f']
  else if c.toNat < 0x20 then unitEscape c.toNat
  else if escapesUnicode && c.toNat ≥ 0x7F then codeEscape c.toNat
  else [c]

/-- A string with its quotes. -/
def writeString (escapesUnicode : Bool) (s : String) : String :=
  String.ofList ('"' :: s.toList.flatMap (escapedChar escapesUnicode) ++ ['"'])

/-- What separates two members at a depth, or a bracket from a member. -/
def Style.gap (style : Style) (depth : Nat) : String :=
  match style.indent with
  | some n => String.ofList ('\n' :: List.replicate (n * depth) ' ')
  | none => ""

/-- What stands between a key and its value. -/
def Style.colon (style : Style) : String :=
  if style.indent.isSome then ": " else ":"

mutual

/-- The text of a value that stands at a depth. -/
def write (style : Style) (depth : Nat) : Json → String
  | .null => "null"
  | .bool b => if b then "true" else "false"
  | .int n => toString n
  | .float x => style.numbers.write x
  | .string s => writeString style.escapesUnicode s
  | .array [] => "[]"
  | .array (item :: items) =>
    "[" ++ style.gap (depth + 1) ++ write style (depth + 1) item ++
      writeItems style (depth + 1) items ++ style.gap depth ++ "]"
  | .object [] => "\x7b\x7d"
  | .object ((key, value) :: members) =>
    "\x7b" ++ style.gap (depth + 1) ++ writeString style.escapesUnicode key ++ style.colon ++
      write style (depth + 1) value ++ writeMembers style (depth + 1) members ++
      style.gap depth ++ "\x7d"

/-- The text of the further items of an array, each after a comma. -/
def writeItems (style : Style) (depth : Nat) : List Json → String
  | [] => ""
  | item :: items =>
    "," ++ style.gap depth ++ write style depth item ++ writeItems style depth items

/-- The text of the further members of an object, each after a comma. -/
def writeMembers (style : Style) (depth : Nat) : List (String × Json) → String
  | [] => ""
  | (key, value) :: members =>
    "," ++ style.gap depth ++ writeString style.escapesUnicode key ++ style.colon ++
      write style depth value ++ writeMembers style depth members

end

/-- The text of a value. -/
def render (style : Style) (j : Json) : String :=
  write style 0 j

end Worklog.Json
