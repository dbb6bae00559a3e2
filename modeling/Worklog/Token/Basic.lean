import Worklog.Position
import Worklog.Query.Choice

/-!
# Tokens

The words and marks of a query, each with the text that was written and its position. A token's
content is canonical: keywords and identifiers no longer depend on letter case, quoted text has
lost its quotes, and `==` has become `=`. Text that is no token is kept as an invalid one, with
the reason.
-/

namespace Worklog

/-- A word of the language. -/
inductive Keyword where
  | conditions
  | columns
  | choice (c : Choice)
  | and
  | between
  | format
  | title
  deriving DecidableEq

namespace Keyword

/-- The words that begin a clause, in the order in which messages list them. -/
def clauseWords : List Keyword :=
  [conditions, columns, choice .view, choice .chart, choice .period, choice .size]

/-- All words of the language. -/
def all : List Keyword :=
  clauseWords ++ [and, between, format, title]

/-- The spelling of a word. -/
def spelling : Keyword → String
  | .conditions => "WHERE"
  | .columns => "SHOW"
  | .choice c => c.word
  | .and => "AND"
  | .between => "BETWEEN"
  | .format => "FORMAT"
  | .title => "AS"

/-- The word with an upper-case spelling. -/
def ofSpelling? (s : String) : Option Keyword :=
  all.find? fun k => k.spelling == s

/-- Whether the word begins a clause. -/
def beginsClause : Keyword → Bool
  | .conditions | .columns | .choice _ => true
  | .and | .between | .format | .title => false

end Keyword

/-- A comparison, known by its symbol. -/
structure Operator where
  symbol : String
  deriving DecidableEq

namespace Operator

/-- The equality sign. -/
def eq : Operator := ⟨"="⟩

/-- The less-than sign. -/
def lt : Operator := ⟨"<"⟩

/-- The sign for less than or equal. -/
def le : Operator := ⟨"<="⟩

/-- The greater-than sign. -/
def gt : Operator := ⟨">"⟩

/-- The sign for greater than or equal. -/
def ge : Operator := ⟨">="⟩

/-- The word by which a range is asked for. -/
def between : Operator := ⟨"BETWEEN"⟩

/-- The operator that is written so; a doubled equality sign means the single one. -/
def ofSpelling (s : String) : Operator :=
  if s = "==" then eq else ⟨s⟩

end Operator

namespace Token

/-- Why a piece of text is no token. -/
inductive Fault where
  | strayCharacter (c : Char)
  | openQuote (quote : Char)
  deriving DecidableEq

/-- The wording of a fault. -/
def Fault.message : Fault → String
  | .strayCharacter c => s!"Unexpected character '{c}'"
  | .openQuote quote => s!"Unterminated string: missing closing {quote}"

/-- The canonical content of a token. -/
inductive Content where
  | keyword (k : Keyword)
  | identifier (name : String)
  | number (digits : String)
  | quoted (text : String)
  | operator (op : Operator)
  | comma
  | comment (text : String)
  | invalid (fault : Fault)
  /-- The end of the text. -/
  | stop
  deriving DecidableEq

end Token

/-- A word or mark of a query, with the text that was written. -/
structure Token where
  content : Token.Content
  text : String
  position : Position
  deriving DecidableEq

namespace Token

/-- The canonical spelling of a token. -/
def lexeme (t : Token) : String :=
  match t.content with
  | .keyword k => k.spelling
  | .identifier name => name
  | .number digits => digits
  | .quoted text => text
  | .operator op => op.symbol
  | .comma => ","
  | .comment text => text
  | .invalid _ => t.text
  | .stop => ""

/-- What messages call a token. -/
def describe (t : Token) : String :=
  match t.content with
  | .stop => "end of input"
  | .quoted _ => s!"string {t.text}"
  | _ => s!"'{t.text}'"

/-- Whether the token is a comment. -/
def isComment (t : Token) : Bool :=
  match t.content with
  | .comment _ => true
  | _ => false

/-- Whether the token begins a clause. -/
def beginsClause (t : Token) : Bool :=
  match t.content with
  | .keyword k => k.beginsClause
  | _ => false

end Token

end Worklog
