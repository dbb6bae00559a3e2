import Worklog.Decimal.Literal
import Worklog.Json.Basic
import Worklog.Text.Hex

/-!
# Reading JSON

The text is cut into lexemes (`lexemes?`), and the lexemes drive a small machine that keeps the
arrays and objects which are still open (`Reader.step?`). Numbers without a point and an exponent
are whole numbers, all others are binary64 numbers; `NaN` and `Infinity` are read too. An escape of
a surrogate that has no partner is refused, because no text stands for it.
-/

namespace Worklog.Json

/-- A bracket, a mark, a string, or a value without parts. -/
inductive Lexeme where
  | openArray
  | closeArray
  | openObject
  | closeObject
  | comma
  | colon
  | string (s : String)
  | scalar (value : Json)

/-- The white space between lexemes. -/
def isSpace (c : Char) : Bool :=
  c == ' ' || c == '\n' || c == '\r' || c == '\t'

/-- The number that a word writes. -/
def numberOf? (word : List Char) : Option Json :=
  match Decimal.readWritten? word with
  | none => none
  | some w =>
    if word.head? = some '+' ∨ w.whole.isEmpty ∨ w.fraction = some [] ∨
        (w.whole.head? = some '0' ∧ w.whole.length > 1) then none
    else if w.fraction.isNone && w.exponent.isNone then
      some (.int (if w.negative then -(Decimal.ofDigits w.whole : Int)
        else Decimal.ofDigits w.whole))
    else some (.float w.value)

/-- The value that a word names or writes. -/
def scalarOf? (word : List Char) : Option Json :=
  match String.ofList word with
  | "null" => some .null
  | "true" => some (.bool true)
  | "false" => some (.bool false)
  | "NaN" => some (.float (0.0 / 0.0))
  | "Infinity" => some (.float (1.0 / 0.0))
  | "-Infinity" => some (.float (-1.0 / 0.0))
  | _ => numberOf? word

/-- Whether a character belongs to a number or to the name of a value. -/
def isWordChar (c : Char) : Bool :=
  c.isAlphanum || c == '-' || c == '+' || c == '.'

/-- The character that an escape letter stands for. -/
def unescape? (c : Char) : Option Char :=
  match c with
  | '"' => some '"'
  | '\\' => some '\\'
  | '/' => some '/'
  | 'b' => some '\x08'
  | 'f' => some '\x0c'
  | 'n' => some '\n'
  | 'r' => some '\r'
  | 't' => some '\t'
  | _ => none

/-- The number that four hexadecimal digits write. -/
def unitOf? (a b c d : Char) : Option Nat := do
  let a ← Text.hexValue? a
  let b ← Text.hexValue? b
  let c ← Text.hexValue? c
  let d ← Text.hexValue? d
  pure (((a * 16 + b) * 16 + c) * 16 + d)

/-- The code points and code units up to the closing quote, and the text after it. -/
def stringUnits? : List Char → Option (List Nat × List Char)
  | [] => none
  | '"' :: rest => some ([], rest)
  | '\\' :: 'u' :: a :: b :: c :: d :: rest => do
    let unit ← unitOf? a b c d
    let (units, rest) ← stringUnits? rest
    pure (unit :: units, rest)
  | '\\' :: e :: rest => do
    let c ← unescape? e
    let (units, rest) ← stringUnits? rest
    pure (c.toNat :: units, rest)
  | c :: rest => do
    let (units, rest) ← stringUnits? rest
    pure (c.toNat :: units, rest)

/-- The character of a code point; a surrogate is none. -/
def charOf? (n : Nat) : Option Char :=
  if valid : n.isValidChar then some (Char.ofNatAux n valid) else none

/--
The characters of a list of code points and code units. Two surrogates make one character; there is
no text with one that stands alone.
-/
def charsOfUnits? : List Nat → Option (List Char)
  | [] => some []
  | [n] => do
    let c ← charOf? n
    pure [c]
  | m :: n :: rest =>
    if 0xD800 ≤ m ∧ m < 0xDC00 ∧ 0xDC00 ≤ n ∧ n < 0xE000 then do
      let c ← charOf? (0x10000 + (m - 0xD800) * 0x400 + (n - 0xDC00))
      let cs ← charsOfUnits? rest
      pure (c :: cs)
    else do
      let c ← charOf? m
      let cs ← charsOfUnits? (n :: rest)
      pure (c :: cs)

/-- The mark that a character is. -/
def markOf? (c : Char) : Option Lexeme :=
  match c with
  | '[' => some .openArray
  | ']' => some .closeArray
  | '\x7b' => some .openObject
  | '\x7d' => some .closeObject
  | ',' => some .comma
  | ':' => some .colon
  | _ => none

theorem length_of_stringUnits? {cs rest : List Char} {units : List Nat}
    (h : stringUnits? cs = some (units, rest)) : rest.length < cs.length := by
  fun_induction stringUnits? cs generalizing units with
  | case1 => simp at h
  | case2 r => simp_all
  | case3 a b c d r ih =>
    simp only [Option.bind_eq_bind, Option.bind_eq_some_iff, Option.pure_def, Option.some.injEq,
      Prod.mk.injEq, Prod.exists] at h
    obtain ⟨_, -, us, r', hr, -, rfl⟩ := h
    have := ih hr
    simp only [List.length_cons]; omega
  | case4 e r _ ih =>
    simp only [Option.bind_eq_bind, Option.bind_eq_some_iff, Option.pure_def, Option.some.injEq,
      Prod.mk.injEq, Prod.exists] at h
    obtain ⟨_, -, us, r', hr, -, rfl⟩ := h
    have := ih hr
    simp only [List.length_cons]; omega
  | case5 c r _ _ _ ih =>
    simp only [Option.bind_eq_bind, Option.bind_eq_some_iff, Option.pure_def, Option.some.injEq,
      Prod.mk.injEq, Prod.exists] at h
    obtain ⟨us, r', hr, -, rfl⟩ := h
    have := ih hr
    simp only [List.length_cons]; omega

/-- The lexemes of a text. -/
def lexemes? : List Char → Option (List Lexeme)
  | [] => some []
  | c :: rest =>
    if isSpace c then lexemes? rest
    else if c = '"' then
      match _h : stringUnits? rest with
      | none => none
      | some (units, after) => do
        let cs ← charsOfUnits? units
        let lexemes ← lexemes? after
        pure (.string (String.ofList cs) :: lexemes)
    else
      match markOf? c with
      | some mark => (lexemes? rest).map (mark :: ·)
      | none =>
        match scalarOf? (c :: rest.takeWhile isWordChar) with
        | some value => (lexemes? (rest.dropWhile isWordChar)).map (.scalar value :: ·)
        | none => none
termination_by cs => cs.length
decreasing_by
  · simp
  · have := length_of_stringUnits? _h
    simp only [List.length_cons]; omega
  · simp
  · have := (List.dropWhile_suffix isWordChar (l := rest)).length_le
    simp only [List.length_cons]; omega

/-- An array or object that is still open, its parts so far in reverse. -/
inductive Frame where
  | array (items : List Json)
  | object (members : List (String × Json))
  /-- An object with a key whose value is still to come. -/
  | member (members : List (String × Json)) (key : String)

/-- What may come next. -/
inductive Expected where
  | value
  | valueOrEnd
  | key
  | keyOrEnd
  | colon
  /-- A comma, or the end of the innermost array or object. -/
  | more
  deriving DecidableEq

/-- The open arrays and objects, innermost first, or the value that has been read. -/
inductive Reader where
  | reading (expected : Expected) (frames : List Frame)
  | done (value : Json)

namespace Reader

/-- Puts a finished value where it belongs. -/
def finish? (value : Json) : List Frame → Option Reader
  | [] => some (.done value)
  | .array items :: frames => some (.reading .more (.array (value :: items) :: frames))
  | .member members key :: frames =>
    some (.reading .more (.object ((key, value) :: members) :: frames))
  | .object _ :: _ => none

/-- Begins or finishes a value. -/
def begin? (lexeme : Lexeme) (frames : List Frame) : Option Reader :=
  match lexeme with
  | .openArray => some (.reading .valueOrEnd (.array [] :: frames))
  | .openObject => some (.reading .keyOrEnd (.object [] :: frames))
  | .string s => finish? (.string s) frames
  | .scalar value => finish? value frames
  | _ => none

/-- Ends the innermost array or object. -/
def end? (lexeme : Lexeme) (frames : List Frame) : Option Reader :=
  match lexeme, frames with
  | .closeArray, .array items :: frames => finish? (.array items.reverse) frames
  | .closeObject, .object members :: frames => finish? (.object members.reverse) frames
  | _, _ => none

/-- Takes the key of the next member. -/
def key? (lexeme : Lexeme) (frames : List Frame) : Option Reader :=
  match lexeme, frames with
  | .string key, .object members :: frames =>
    some (.reading .colon (.member members key :: frames))
  | _, _ => none

/-- Goes on after one item or member. -/
def more? (lexeme : Lexeme) (frames : List Frame) : Option Reader :=
  match lexeme, frames with
  | .comma, .array items :: frames => some (.reading .value (.array items :: frames))
  | .comma, .object members :: frames => some (.reading .key (.object members :: frames))
  | _, _ => end? lexeme frames

/-- Takes one lexeme. -/
def step? (reader : Reader) (lexeme : Lexeme) : Option Reader :=
  match reader with
  | .done _ => none
  | .reading .value frames => begin? lexeme frames
  | .reading .valueOrEnd frames => (end? lexeme frames).or (begin? lexeme frames)
  | .reading .key frames => key? lexeme frames
  | .reading .keyOrEnd frames => (end? lexeme frames).or (key? lexeme frames)
  | .reading .colon frames =>
    match lexeme with
    | .colon => some (.reading .value frames)
    | _ => none
  | .reading .more frames => more? lexeme frames

end Reader

/-- The value that a text writes. -/
def parse? (s : String) : Option Json := do
  let lexemes ← lexemes? s.toList
  match ← lexemes.foldlM Reader.step? (.reading .value []) with
  | .done value => some value
  | .reading _ _ => none

end Worklog.Json
