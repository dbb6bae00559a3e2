import Worklog.Proofs.Clause.Grammar

/-!
# What is written is read

Tokens that write a part are read as that part, whatever follows them. The readers that look one
token ahead need to know that what follows does not carry on (`NotAhead`); where a clause may end,
nothing does (`notAhead_of_atBoundary`). So tokens that write clauses are read as those clauses
(`parseClauses_of_allWritten`).
-/

namespace Worklog

namespace Clause

variable {fields : List String} {stop : Position}

theorem parseLiteral_of_written {after : String} {l : Literal} {ts : List Token}
    (h : l.Written ts) (rest : List Token) :
    parseLiteral stop after (ts ++ rest) = .ok (l, rest) := by
  cases h with
  | number content => simp [parseLiteral, content]
  | text content shape => simp [parseLiteral, content, shape]
  | date content shape => simp [parseLiteral, content, shape]

theorem parseTest_of_written {field : String} {test : Test Literal} {ts : List Token}
    (h : test.Written ts) (rest : List Token) :
    parseTest stop field (ts ++ rest) = .ok (test, rest) := by
  cases h with
  | compare content value =>
    simp only [List.cons_append, parseTest, content, parseLiteral_of_written value]
    rfl
  | range first lower middle upper =>
    simp only [List.cons_append, List.append_assoc, parseTest, first,
      parseLiteral_of_written lower]
    simp only [bind, Except.bind, parseKeyword, middle, if_true, parseLiteral_of_written upper]

theorem parseCondition_of_written {after : Keyword} {c : Condition} {ts : List Token}
    (h : c.Written (· ∈ fields) ts) (rest : List Token) :
    parseCondition fields stop after (ts ++ rest) = .ok (c, rest) := by
  cases h with
  | mk content field tests =>
    simp only [List.cons_append, parseCondition, content, field, if_true,
      parseTest_of_written tests]
    rfl

/-- The tokens do not begin with a word. -/
def NotAhead (k : Keyword) (tokens : List Token) : Prop :=
  ∀ t ∈ tokens.head?, t.content ≠ .keyword k

theorem parseFormat_of_written {format : Option String} {ts : List Token}
    (h : ColumnItem.FormatWritten format ts) {rest : List Token} (hr : NotAhead .format rest) :
    parseFormat stop (ts ++ rest) = .ok (format, rest) := by
  cases h with
  | none =>
    cases rest with
    | nil => rfl
    | cons t rest => simp [parseFormat, hr t rfl]
  | some word content format => simp [parseFormat, word, content, format]

theorem parseTitle_of_written {title : Option String} {ts : List Token}
    (h : ColumnItem.TitleWritten title ts) {rest : List Token} (hr : NotAhead .title rest) :
    parseTitle stop (ts ++ rest) = .ok (title, rest) := by
  cases h with
  | none =>
    cases rest with
    | nil => rfl
    | cons t rest => simp [parseTitle, hr t rfl]
  | some word content => simp [parseTitle, word, content]

theorem notAhead_format_of_titleWritten {title : Option String} {ts : List Token}
    (h : ColumnItem.TitleWritten title ts) {rest : List Token} (hr : NotAhead .format rest) :
    NotAhead .format (ts ++ rest) := by
  cases h with
  | none => exact hr
  | some word content =>
    intro t ht
    cases ht
    rw [word]
    simp

theorem parseColumn_of_written {c : ColumnItem} {ts : List Token} (h : c.Written ts)
    {rest : List Token} (hf : NotAhead .format rest) (ht : NotAhead .title rest) :
    parseColumn stop (ts ++ rest) = .ok (c, rest) := by
  cases h with
  | field content formats titles =>
    simp only [List.cons_append, List.append_assoc, parseColumn, content,
      parseFormat_of_written formats (notAhead_format_of_titleWritten titles hf)]
    simp only [bind, Except.bind, parseTitle_of_written titles ht]
  | @title t u text word content =>
    have hw : parseTitle stop (t :: u :: rest) = .ok (some text, rest) :=
      parseTitle_of_written (.some word content) ht
    simp only [List.cons_append, List.nil_append, parseColumn, word, hw]
    rfl

theorem parseConditions_last {after : Keyword} {tokens rest : List Token} {c : Condition}
    (h : parseCondition fields stop after tokens = .ok (c, rest)) (hr : NotAhead .and rest) :
    parseConditions fields stop after tokens = .ok ([c], rest) := by
  unfold parseConditions
  split
  · rename_i e he
    rw [h] at he; cases he
  · rename_i c' he
    rw [h] at he; cases he; rfl
  · rename_i c' t r he
    rw [h] at he
    cases he
    rw [if_neg (hr t rfl)]

theorem parseConditions_more {after : Keyword} {tokens rest rest' : List Token} {t : Token}
    {c : Condition} {cs : List Condition}
    (h : parseCondition fields stop after tokens = .ok (c, t :: rest))
    (ht : t.content = .keyword .and)
    (hcs : parseConditions fields stop .and rest = .ok (cs, rest')) :
    parseConditions fields stop after tokens = .ok (c :: cs, rest') := by
  unfold parseConditions
  split
  · rename_i e he
    rw [h] at he; cases he
  · rename_i c' he
    rw [h] at he; cases he
  · rename_i c' t' r he
    rw [h] at he
    cases he
    rw [if_pos ht, hcs]
    rfl

theorem parseConditions_of_separated {after : Keyword} {cs : List Condition} {ts : List Token}
    (h : Token.Separated (Condition.Written (· ∈ fields)) (.keyword .and) cs ts)
    {rest : List Token} (hr : NotAhead .and rest) :
    parseConditions fields stop after (ts ++ rest) = .ok (cs, rest) := by
  -- The word that a refusal would name changes from `WHERE` to `AND` along the way.
  induction h generalizing after with
  | single head => exact parseConditions_last (parseCondition_of_written head rest) hr
  | cons head between tail ih =>
    rw [List.append_assoc, List.cons_append]
    exact parseConditions_more (parseCondition_of_written head _) between ih

theorem parseColumns_last {tokens rest : List Token} {c : ColumnItem}
    (h : parseColumn stop tokens = .ok (c, rest)) (hr : ∀ t ∈ rest.head?, t.content ≠ .comma) :
    parseColumns stop tokens = .ok ([c], rest) := by
  unfold parseColumns
  split
  · rename_i e he
    rw [h] at he; cases he
  · rename_i c' he
    rw [h] at he; cases he; rfl
  · rename_i c' t r he
    rw [h] at he
    cases he
    rw [if_neg (hr t rfl)]

theorem parseColumns_more {tokens rest rest' : List Token} {t : Token} {c : ColumnItem}
    {cs : List ColumnItem} (h : parseColumn stop tokens = .ok (c, t :: rest))
    (ht : t.content = .comma) (hcs : parseColumns stop rest = .ok (cs, rest')) :
    parseColumns stop tokens = .ok (c :: cs, rest') := by
  unfold parseColumns
  split
  · rename_i e he
    rw [h] at he; cases he
  · rename_i c' he
    rw [h] at he; cases he
  · rename_i c' t' r he
    rw [h] at he
    cases he
    rw [if_pos ht, hcs]
    rfl

/-- Where a clause may end, none of its items goes on. -/
theorem notAhead_of_atBoundary {k : Keyword} (hk : k.beginsClause = false) {rest : List Token}
    (h : atBoundary rest = true) : NotAhead k rest := by
  intro t ht hc
  cases rest with
  | nil => cases ht
  | cons u rest =>
    cases ht
    simp only [atBoundary, Token.beginsClause, hc, hk] at h
    cases h

theorem parseColumns_of_separated {cs : List ColumnItem} {ts : List Token}
    (h : Token.Separated ColumnItem.Written .comma cs ts) {rest : List Token}
    (hr : atBoundary rest = true) : parseColumns stop (ts ++ rest) = .ok (cs, rest) := by
  induction h with
  | single head =>
    refine parseColumns_last (parseColumn_of_written head
      (notAhead_of_atBoundary rfl hr) (notAhead_of_atBoundary rfl hr)) ?_
    intro t ht hc
    cases rest with
    | nil => cases ht
    | cons u rest =>
      cases ht
      simp only [atBoundary, Token.beginsClause, hc] at hr
      cases hr
  | @cons a as t ts us head between tail ih =>
    -- A comma follows, so neither a format nor a title is missed.
    have ahead : ∀ k, NotAhead k (t :: us ++ rest) := by
      intro k u hu
      cases hu
      rw [between]
      simp
    rw [List.append_assoc]
    exact parseColumns_more (parseColumn_of_written head (ahead _) (ahead _)) between ih

theorem parseChoice_of_written {c : Choice} {value : String} {t : Token}
    (h : c.ValueWritten value t) (rest : List Token) :
    parseChoice stop c (t :: rest) = .ok (value, rest) := by
  cases h with
  | name content mem => simp [parseChoice, chosenName?, content, mem]
  | chart content =>
    have hv := (Choice.keyword_mem_values_iff (.choice .chart) .view).2 ⟨rfl, rfl⟩
    simp only [parseChoice, chosenName?, content, hv, if_true]
    rfl

variable (stop) in
theorem parseBody_of_written {c : Clause} {ts : List Token} (h : c.Written (· ∈ fields) ts)
    {rest : List Token} (hr : atBoundary rest = true) :
    ∃ t us k, ts = t :: us ∧ t.content = .keyword k ∧ k.beginsClause = true ∧
      c.position = t.position ∧ parseBody fields stop k (us ++ rest) = .ok (c.body, rest) := by
  cases h with
  | @conditions t cs us word items =>
    refine ⟨t, us, .conditions, rfl, word, rfl, rfl, ?_⟩
    simp only [parseBody, parseConditions_of_separated items (notAhead_of_atBoundary rfl hr)]
    simp only [bind, Except.bind, hr, if_true]
  | @columns t cs us word items =>
    refine ⟨t, us, .columns, rfl, word, rfl, rfl, ?_⟩
    simp only [parseBody, parseColumns_of_separated items hr]
    simp only [bind, Except.bind, hr, if_true]
  | @choice t u ch value word content =>
    refine ⟨t, [u], .choice ch, rfl, word, rfl, rfl, ?_⟩
    simp only [parseBody, List.cons_append, List.nil_append, parseChoice_of_written content]
    rfl

theorem atBoundary_of_allWritten {known : String → Prop} {clauses : List Clause}
    {ts : List Token} (h : Clause.AllWritten known clauses ts) : atBoundary ts = true := by
  cases h with
  | nil => rfl
  | cons head tail =>
    cases head with
    | conditions word items => simp [atBoundary, Token.beginsClause, word, Keyword.beginsClause]
    | columns word items => simp [atBoundary, Token.beginsClause, word, Keyword.beginsClause]
    | choice word content => simp [atBoundary, Token.beginsClause, word, Keyword.beginsClause]

theorem parseClauses_cons {t : Token} {k : Keyword} (ht : t.content = .keyword k)
    (hk : k.beginsClause = true) {tokens rest : List Token} {b : Body}
    (hb : parseBody fields stop k tokens = .ok (b, rest)) {clauses : List Clause}
    (hcs : parseClauses fields stop rest = .ok clauses) :
    parseClauses fields stop (t :: tokens) = .ok (⟨b, t.position⟩ :: clauses) := by
  unfold parseClauses
  simp only [ht, hk, if_true]
  split
  · rename_i e he
    rw [hb] at he; cases he
  · rename_i b' rest' he
    rw [hb] at he
    cases he
    rw [hcs]
    rfl

variable (stop) in
/-- Tokens that write clauses are read as those clauses. -/
theorem parseClauses_of_allWritten {clauses : List Clause} {ts : List Token}
    (h : Clause.AllWritten (· ∈ fields) clauses ts) :
    parseClauses fields stop ts = .ok clauses := by
  induction h with
  | nil => rw [parseClauses]
  | @cons c cs ts us head tail ih =>
    obtain ⟨t, vs, k, rfl, ht, hk, hp, hb⟩ :=
      parseBody_of_written stop head (atBoundary_of_allWritten tail)
    have hc : c = ⟨c.body, t.position⟩ := by rw [← hp]
    rw [hc]
    exact parseClauses_cons ht hk hb ih

end Clause

end Worklog
