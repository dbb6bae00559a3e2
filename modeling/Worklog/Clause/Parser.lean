import Worklog.Clause.Basic
import Worklog.Date
import Worklog.Query.Error
import Worklog.Text.Closest

/-!
# From tokens to clauses

    query      := clause*
    clause     := WHERE condition (AND condition)*
                | SHOW column ("," column)*
                | VIEW view | CHART chart | PERIOD period | SIZE size
    condition  := field operator literal | field BETWEEN literal AND literal
    column     := field [FORMAT format] [AS text] | AS text

Each function below takes the tokens that are left and returns what it has read together with
those after it. The end of the text is not among them: it is the position `stop`. An error is
placed at the first token that cannot stand where it does, and an invalid token cannot stand
anywhere. The fields that a condition may name are given by the list `fields`.
-/

namespace Worklog.Clause

/-- The error at the first of the tokens, which the cause is told how to describe. -/
def refusal (stop : Position) (tokens : List Token) (cause : String → Cause) : QueryError :=
  match tokens with
  | [] => .located stop (cause "end of input")
  | t :: _ =>
    match t.content with
    | .invalid fault => .located t.position (.token fault)
    | _ => .located t.position (cause t.describe)

/-- Whether a clause may end before the tokens. -/
def atBoundary : List Token → Bool
  | [] => true
  | t :: _ => t.beginsClause

/-- Reads a literal; `after` is what stands before it. -/
def parseLiteral (stop : Position) (after : String) :
    List Token → Except QueryError (Literal × List Token)
  | [] => .error (refusal stop [] (.valueExpected after))
  | t :: rest =>
    match t.content with
    | .number digits => .ok (⟨.number, digits, t.position⟩, rest)
    | .quoted text =>
      let kind := if Date.looksLikeLine text.toList then .date else .text
      .ok (⟨kind, text, t.position⟩, rest)
    | _ => .error (refusal stop (t :: rest) (.valueExpected after))

/-- Reads a keyword. -/
def parseKeyword (stop : Position) (k : Keyword) (cause : String → Cause) :
    List Token → Except QueryError (List Token)
  | [] => .error (refusal stop [] cause)
  | t :: rest =>
    if t.content = .keyword k then .ok rest else .error (refusal stop (t :: rest) cause)

/-- Reads an operator with its literal, or a range; `field` is the field as it was written. -/
def parseTest (stop : Position) (field : String) :
    List Token → Except QueryError (Test Literal × List Token)
  | [] => .error (refusal stop [] (.operatorExpected field))
  | t :: rest =>
    match t.content with
    | .operator op => do
      let (value, rest) ← parseLiteral stop s!"'{op.symbol}'" rest
      .ok (.compare op value, rest)
    | .keyword .between => do
      let (low, rest) ← parseLiteral stop "BETWEEN" rest
      let rest ← parseKeyword stop .and .rangeBroken rest
      let (high, rest) ← parseLiteral stop "AND" rest
      .ok (.range low high, rest)
    | _ => .error (refusal stop (t :: rest) (.operatorExpected field))

/-- Reads a condition; `after` is the word before it. -/
def parseCondition (fields : List String) (stop : Position) (after : Keyword) :
    List Token → Except QueryError (Condition × List Token)
  | [] => .error (refusal stop [] (.fieldExpected after))
  | t :: rest =>
    match t.content with
    | .identifier name =>
      if name ∈ fields then do
        let (test, rest) ← parseTest stop t.text rest
        .ok (⟨name, test, t.position⟩, rest)
      else
        .error (.located t.position
          (.unknownField t.text fields (Text.closest? fields name)))
    | _ => .error (refusal stop (t :: rest) (.fieldExpected after))

/-- Reads a format, if one is announced. -/
def parseFormat (stop : Position) :
    List Token → Except QueryError (Option String × List Token)
  | [] => .ok (none, [])
  | t :: rest =>
    if t.content = .keyword .format then
      match rest with
      | [] => .error (refusal stop [] .unknownFormat)
      | u :: after =>
        match u.content with
        | .identifier name =>
          if name ∈ Format.all.map Format.name then .ok (some name, after)
          else .error (refusal stop rest .unknownFormat)
        | _ => .error (refusal stop rest .unknownFormat)
    else .ok (none, t :: rest)

/-- Reads a title, if one is announced. -/
def parseTitle (stop : Position) :
    List Token → Except QueryError (Option String × List Token)
  | [] => .ok (none, [])
  | t :: rest =>
    if t.content = .keyword .title then
      match rest with
      | [] => .error (refusal stop [] .titleExpected)
      | u :: after =>
        match u.content with
        | .quoted text => .ok (some text, after)
        | _ => .error (refusal stop rest .titleExpected)
    else .ok (none, t :: rest)

/-- Reads a column. -/
def parseColumn (stop : Position) : List Token → Except QueryError (ColumnItem × List Token)
  | [] => .error (refusal stop [] .columnExpected)
  | t :: rest =>
    match t.content with
    | .identifier name => do
      let (format, rest) ← parseFormat stop rest
      let (title, rest) ← parseTitle stop rest
      .ok (⟨some name, format, title, t.position⟩, rest)
    | .keyword .title => do
      let (title, rest) ← parseTitle stop (t :: rest)
      .ok (⟨none, none, title, t.position⟩, rest)
    | _ => .error (refusal stop (t :: rest) .columnExpected)

section Progress

variable {α β : Type}

theorem ok_of_bind_ok {x : Except QueryError α} {f : α → Except QueryError β} {b : β}
    (h : (x >>= f) = .ok b) : ∃ a, x = .ok a ∧ f a = .ok b := by
  cases x with
  | error e => cases h
  | ok a => exact ⟨a, rfl, h⟩

theorem length_of_parseLiteral {stop : Position} {after : String} {tokens rest : List Token}
    {l : Literal} (h : parseLiteral stop after tokens = .ok (l, rest)) :
    rest.length < tokens.length := by
  unfold parseLiteral at h
  split at h
  · cases h
  · split at h <;> cases h <;> simp

theorem length_of_parseKeyword {stop : Position} {k : Keyword} {cause : String → Cause}
    {tokens rest : List Token} (h : parseKeyword stop k cause tokens = .ok rest) :
    rest.length < tokens.length := by
  unfold parseKeyword at h
  split at h
  · cases h
  · split at h <;> cases h; simp

theorem length_of_parseTest {stop : Position} {field : String} {tokens rest : List Token}
    {test : Test Literal} (h : parseTest stop field tokens = .ok (test, rest)) :
    rest.length < tokens.length := by
  unfold parseTest at h
  split at h
  · cases h
  · split at h
    · obtain ⟨⟨l, r⟩, hl, h⟩ := ok_of_bind_ok h
      cases h
      have := length_of_parseLiteral hl
      simp only [List.length_cons]; omega
    · obtain ⟨⟨l, r⟩, hl, h⟩ := ok_of_bind_ok h
      obtain ⟨r', hk, h⟩ := ok_of_bind_ok h
      obtain ⟨⟨u, r''⟩, hu, h⟩ := ok_of_bind_ok h
      cases h
      have := length_of_parseLiteral hl
      have := length_of_parseKeyword hk
      have := length_of_parseLiteral hu
      simp only [List.length_cons]; omega
    · cases h

theorem length_of_parseCondition {fields : List String} {stop : Position} {after : Keyword}
    {tokens rest : List Token} {c : Condition}
    (h : parseCondition fields stop after tokens = .ok (c, rest)) :
    rest.length < tokens.length := by
  unfold parseCondition at h
  split at h
  · cases h
  · split at h
    · split at h
      · obtain ⟨⟨l, r⟩, hl, h⟩ := ok_of_bind_ok h
        cases h
        have := length_of_parseTest hl
        simp only [List.length_cons]; omega
      · cases h
    · cases h

theorem length_of_parseFormat {stop : Position} {tokens rest : List Token} {f : Option String}
    (h : parseFormat stop tokens = .ok (f, rest)) : rest.length ≤ tokens.length := by
  unfold parseFormat at h
  repeat' split at h
  all_goals cases h
  all_goals simp <;> omega

theorem length_of_parseTitle {stop : Position} {tokens rest : List Token} {a : Option String}
    (h : parseTitle stop tokens = .ok (a, rest)) : rest.length ≤ tokens.length := by
  unfold parseTitle at h
  repeat' split at h
  all_goals cases h
  all_goals simp <;> omega

/-- A title that is announced is read. -/
theorem length_of_parseTitle_title {stop : Position} {t : Token} {tokens rest : List Token}
    {a : Option String} (ht : t.content = .keyword .title)
    (h : parseTitle stop (t :: tokens) = .ok (a, rest)) : rest.length < (t :: tokens).length := by
  unfold parseTitle at h
  simp only [ht, if_true] at h
  repeat' split at h
  all_goals cases h
  simp only [List.length_cons]; omega

theorem length_of_parseColumn {stop : Position} {tokens rest : List Token} {c : ColumnItem}
    (h : parseColumn stop tokens = .ok (c, rest)) : rest.length < tokens.length := by
  unfold parseColumn at h
  split at h
  · cases h
  · split at h
    · obtain ⟨⟨f, r⟩, hf, h⟩ := ok_of_bind_ok h
      obtain ⟨⟨a, r'⟩, ha, h⟩ := ok_of_bind_ok h
      cases h
      have := length_of_parseFormat hf
      have := length_of_parseTitle ha
      simp only [List.length_cons]; omega
    · obtain ⟨⟨a, r⟩, ha, h⟩ := ok_of_bind_ok h
      cases h
      exact length_of_parseTitle_title (by assumption) ha
    · cases h

end Progress

/-- Reads conditions joined by AND. -/
def parseConditions (fields : List String) (stop : Position) (after : Keyword)
    (tokens : List Token) : Except QueryError (List Condition × List Token) :=
  match _h : parseCondition fields stop after tokens with
  | .error e => .error e
  | .ok (c, []) => .ok ([c], [])
  | .ok (c, t :: rest) =>
    if t.content = .keyword .and then do
      let (cs, rest) ← parseConditions fields stop .and rest
      .ok (c :: cs, rest)
    else .ok ([c], t :: rest)
termination_by tokens.length
decreasing_by
  have := length_of_parseCondition _h
  simp only [List.length_cons] at this; omega

/-- Reads columns with commas between. -/
def parseColumns (stop : Position) (tokens : List Token) :
    Except QueryError (List ColumnItem × List Token) :=
  match _h : parseColumn stop tokens with
  | .error e => .error e
  | .ok (c, []) => .ok ([c], [])
  | .ok (c, t :: rest) =>
    if t.content = .comma then do
      let (cs, rest) ← parseColumns stop rest
      .ok (c :: cs, rest)
    else .ok ([c], t :: rest)
termination_by tokens.length
decreasing_by
  have := length_of_parseColumn _h
  simp only [List.length_cons] at this; omega

/-- The name that a token may choose; the name of one view is also a keyword. -/
def chosenName? (t : Token) : Option String :=
  match t.content with
  | .identifier name => some name
  | .keyword k => some (String.ofList (k.spelling.toList.map Char.toLower))
  | _ => none

/-- Reads the value of a choice. -/
def parseChoice (stop : Position) (c : Choice) :
    List Token → Except QueryError (String × List Token)
  | [] => .error (.located stop (.choiceExpected c))
  | t :: rest =>
    match chosenName? t with
    | some name =>
      if name ∈ c.values then .ok (name, rest)
      else if t.beginsClause then .error (.located t.position (.choiceExpected c))
      else .error (refusal stop (t :: rest) (.unknownChoice c))
    | none => .error (refusal stop (t :: rest) (.unknownChoice c))

/-- The error of conditions that are followed by something else. -/
def conditionsRefusal (stop : Position) (tokens : List Token) : QueryError :=
  match tokens with
  | t :: _ =>
    if t.content = .identifier "or" then .located t.position .disjunction
    else refusal stop tokens .conditionsBroken
  | [] => refusal stop [] .conditionsBroken

/-- The error of tokens that no clause begins with. -/
def clauseRefusal (stop : Position) (tokens : List Token) : QueryError :=
  match tokens with
  | t :: _ =>
    match t.content with
    | .identifier _ => refusal stop tokens .unknownKeyword
    | _ => refusal stop tokens .clauseExpected
  | [] => refusal stop [] .clauseExpected

/-- Reads what follows the first word of a clause. -/
def parseBody (fields : List String) (stop : Position) (k : Keyword) (tokens : List Token) :
    Except QueryError (Body × List Token) :=
  match k with
  | .conditions => do
    let (cs, rest) ← parseConditions fields stop .conditions tokens
    if atBoundary rest then .ok (.conditions cs, rest) else .error (conditionsRefusal stop rest)
  | .columns => do
    let (cs, rest) ← parseColumns stop tokens
    if atBoundary rest then .ok (.columns cs, rest)
    else .error (refusal stop rest .columnsBroken)
  | .choice c => do
    let (value, rest) ← parseChoice stop c tokens
    .ok (.choice c value, rest)
  | .and | .between | .format | .title => .error (clauseRefusal stop tokens)

section Progress

theorem length_of_parseConditions {fields : List String} {stop : Position} {after : Keyword}
    {tokens rest : List Token} {cs : List Condition}
    (h : parseConditions fields stop after tokens = .ok (cs, rest)) :
    rest.length < tokens.length := by
  fun_induction parseConditions fields stop after tokens generalizing cs with
  | case1 => cases h
  | case2 after tokens c hc =>
    cases h
    exact length_of_parseCondition hc
  | case3 after tokens c t r hc _ ih =>
    obtain ⟨⟨cs', r'⟩, hr, h⟩ := ok_of_bind_ok h
    cases h
    have := length_of_parseCondition hc
    have := ih hr
    simp only [List.length_cons] at *; omega
  | case4 after tokens c t r hc _ =>
    cases h
    exact length_of_parseCondition hc

theorem length_of_parseColumns {stop : Position} {tokens rest : List Token}
    {cs : List ColumnItem} (h : parseColumns stop tokens = .ok (cs, rest)) :
    rest.length < tokens.length := by
  fun_induction parseColumns stop tokens generalizing cs with
  | case1 => cases h
  | case2 tokens c hc =>
    cases h
    exact length_of_parseColumn hc
  | case3 tokens c t r hc _ ih =>
    obtain ⟨⟨cs', r'⟩, hr, h⟩ := ok_of_bind_ok h
    cases h
    have := length_of_parseColumn hc
    have := ih hr
    simp only [List.length_cons] at *; omega
  | case4 tokens c t r hc _ =>
    cases h
    exact length_of_parseColumn hc

theorem length_of_parseChoice {stop : Position} {c : Choice} {tokens rest : List Token}
    {value : String} (h : parseChoice stop c tokens = .ok (value, rest)) :
    rest.length < tokens.length := by
  unfold parseChoice at h
  repeat' split at h
  all_goals cases h
  simp

theorem length_of_parseBody {fields : List String} {stop : Position} {k : Keyword}
    {tokens rest : List Token} {b : Body}
    (h : parseBody fields stop k tokens = .ok (b, rest)) : rest.length < tokens.length := by
  unfold parseBody at h
  split at h
  · obtain ⟨⟨cs, r⟩, hc, h⟩ := ok_of_bind_ok h
    dsimp only at h
    split at h <;> cases h
    exact length_of_parseConditions hc
  · obtain ⟨⟨cs, r⟩, hc, h⟩ := ok_of_bind_ok h
    dsimp only at h
    split at h <;> cases h
    exact length_of_parseColumns hc
  · obtain ⟨⟨v, r⟩, hv, h⟩ := ok_of_bind_ok h
    cases h
    exact length_of_parseChoice hv
  all_goals cases h

end Progress

/-- Reads the clauses that the tokens are. -/
def parseClauses (fields : List String) (stop : Position) : List Token →
    Except QueryError (List Clause)
  | [] => .ok []
  | t :: rest =>
    match t.content with
    | .keyword k =>
      if k.beginsClause then
        match _h : parseBody fields stop k rest with
        | .error e => .error e
        | .ok (body, rest') => do
          let clauses ← parseClauses fields stop rest'
          .ok (⟨body, t.position⟩ :: clauses)
      else .error (clauseRefusal stop (t :: rest))
    | _ => .error (clauseRefusal stop (t :: rest))
termination_by tokens => tokens.length
decreasing_by
  have := length_of_parseBody _h
  simp only [List.length_cons]; omega

/-- Where the text ends: at the first end among the tokens, or else at the last token. -/
def stopOf (tokens : List Token) : Position :=
  match tokens.find? fun t => t.content == .stop with
  | some t => t.position
  | none => (tokens.getLast?.map Token.position).getD .start

/-- Reads a query from its tokens; comments and all that follows the end are passed over. -/
def parseTokens (fields : List String) (tokens : List Token) : Except QueryError (List Clause) :=
  let tokens := tokens.filter fun t => !t.isComment
  parseClauses fields (stopOf tokens) (tokens.takeWhile fun t => t.content != .stop)

end Worklog.Clause
