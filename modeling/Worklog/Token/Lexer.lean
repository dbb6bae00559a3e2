import Worklog.Text.Blank
import Worklog.Text.Digit
import Worklog.Token.Basic

/-!
# From text to tokens

The text is first cut into pieces (`pieces`), each as long as its shape allows, so that the pieces
put together are the text again (`flatMap_text_pieces`). A piece of white space becomes no token,
every other piece becomes one, and a token that marks the end of the text stands last
(`Token.tokenize`). Nothing is refused here: text that fits no shape becomes an invalid token.
-/

namespace Worklog.Token

/-- What a piece of text looks like. -/
inductive Shape where
  | blank
  | comment
  | quoted
  /-- A quote that is never closed, with all that follows it. -/
  | openQuote
  | number
  | operator
  | comma
  | word
  | stray
  deriving DecidableEq

/-- A piece of a text. -/
structure Piece where
  shape : Shape
  text : List Char
  deriving DecidableEq

/-- Whether a word may begin with the character. -/
def beginsWord (c : Char) : Bool :=
  c.isAlpha || c == '_'

/-- Whether a word may go on with the character. -/
def continuesWord (c : Char) : Bool :=
  c.isAlphanum || c == '_' || c == '-'

/-- The number of elements at the start that satisfy the condition. -/
def runLength (p : Char → Bool) (cs : List Char) : Nat :=
  (cs.takeWhile p).length

/-- The length of a point and digits at the start, or zero if there are none. -/
def fractionLength : List Char → Nat
  | '.' :: c :: rest => if Text.isDigit c then 2 + runLength Text.isDigit rest else 0
  | _ => 0

/-- The shape of the piece that begins with `c`, and how many characters of `rest` it takes. -/
def extent (c : Char) (rest : List Char) : Shape × Nat :=
  if Text.isBlank c then (.blank, runLength Text.isBlank rest)
  else if c = '/' ∧ rest.head? = some '/' then (.comment, runLength (· != '\n') rest)
  else if c = '"' ∨ c = '\'' then
    let body := runLength (· != c) rest
    if body < rest.length then (.quoted, body + 1) else (.openQuote, body)
  else if Text.isDigit c then
    let whole := runLength Text.isDigit rest
    (.number, whole + fractionLength (rest.drop whole))
  else if c = '<' ∨ c = '>' ∨ c = '=' then
    (.operator, if rest.head? = some '=' then 1 else 0)
  else if c = '!' ∧ rest.head? = some '=' then (.operator, 1)
  else if c = ',' then (.comma, 0)
  else if beginsWord c then (.word, runLength continuesWord rest)
  else (.stray, 0)

/-- The pieces of a text. -/
def pieces : List Char → List Piece
  | [] => []
  | c :: rest =>
    ⟨(extent c rest).1, c :: rest.take (extent c rest).2⟩ :: pieces (rest.drop (extent c rest).2)
termination_by cs => cs.length
decreasing_by simp only [List.length_drop, List.length_cons]; omega

/-- The content of a word: a keyword in any letter case, or else an identifier. -/
def wordContent (cs : List Char) : Content :=
  match Keyword.ofSpelling? (String.ofList (cs.map Char.toUpper)) with
  | some k => .keyword k
  | none => .identifier (String.ofList (cs.map Char.toLower))

/-- The content of the token that a piece becomes; white space becomes none. -/
def Piece.content? (p : Piece) : Option Content :=
  match p.shape with
  | .blank => none
  | .comment => some (.comment (String.ofList (Text.strip (p.text.drop 2))))
  | .quoted => some (.quoted (String.ofList (p.text.drop 1).dropLast))
  | .openQuote => some (.invalid (.openQuote (p.text.headD '"')))
  | .number => some (.number (String.ofList p.text))
  | .operator => some (.operator (.ofSpelling (String.ofList p.text)))
  | .comma => some .comma
  | .word => some (wordContent p.text)
  | .stray => some (.invalid (.strayCharacter (p.text.headD ' ')))

/-- The tokens of pieces that begin at a position, and the end of the text. -/
def place (position : Position) : List Piece → List Token
  | [] => [⟨.stop, "", position⟩]
  | p :: ps =>
    match p.content? with
    | some content => ⟨content, String.ofList p.text, position⟩ :: place (position.after p.text) ps
    | none => place (position.after p.text) ps

/-- The tokens of a text, with the comments or without. -/
def tokenize (keepComments : Bool) (s : String) : List Token :=
  (place .start (pieces s.toList)).filter fun t => keepComments || !t.isComment

theorem flatMap_text_pieces (cs : List Char) : (pieces cs).flatMap Piece.text = cs := by
  fun_induction pieces cs with
  | case1 => rfl
  | case2 c rest ih => simp [ih]

end Worklog.Token
