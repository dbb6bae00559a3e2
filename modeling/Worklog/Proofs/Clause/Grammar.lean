import Worklog.Clause.Parser

/-!
# The grammar of queries

What the tokens of a query have to be, as relations between a tree and the tokens that write it.
They say nothing of how tokens are read: `Literal.Written`, `Test.Written`, `Condition.Written`,
`ColumnItem.Written` and `Choice.ValueWritten` describe the parts, `Token.Separated` items with a
mark between neighbours, and `Clause.Written` and `Clause.AllWritten` clauses and queries. The
relations fix the positions of a tree too: each part has that of its first token.

Among the tokens of a query there are no invalid ones, no comments and no ends
(`Clause.AllWritten.isPart`, `Clause.AllWritten.valid`), and the relations depend on the set of
known fields only through the identifiers among the tokens (`Clause.AllWritten.imp`).
-/

namespace Worklog

/-! ## The relations -/

/-- The token that writes a literal; a quoted text in the shape of a date is a date. -/
inductive Literal.Written : Literal → List Token → Prop
  | number {t : Token} {digits : String} (content : t.content = .number digits) :
      Written ⟨.number, digits, t.position⟩ [t]
  | text {t : Token} {s : String} (content : t.content = .quoted s)
      (shape : Date.looksLikeLine s.toList = false) : Written ⟨.text, s, t.position⟩ [t]
  | date {t : Token} {s : String} (content : t.content = .quoted s)
      (shape : Date.looksLikeLine s.toList = true) : Written ⟨.date, s, t.position⟩ [t]

/-- The tokens that write a test: `operator literal`, or `BETWEEN literal AND literal`. -/
inductive Test.Written : Test Literal → List Token → Prop
  | compare {t : Token} {op : Operator} {l : Literal} {ls : List Token}
      (content : t.content = .operator op) (value : l.Written ls) :
      Written (.compare op l) (t :: ls)
  | range {t u : Token} {low high : Literal} {ls hs : List Token}
      (first : t.content = .keyword .between) (lower : low.Written ls)
      (middle : u.content = .keyword .and) (upper : high.Written hs) :
      Written (.range low high) (t :: (ls ++ u :: hs))

/-- The tokens that write a condition: a known field and a test. -/
inductive Condition.Written (known : String → Prop) : Condition → List Token → Prop
  | mk {t : Token} {name : String} {test : Test Literal} {ts : List Token}
      (content : t.content = .identifier name) (field : known name) (tests : test.Written ts) :
      Written known ⟨name, test, t.position⟩ (t :: ts)

/-- The tokens of the format of a column, of which there are none if it has no format. -/
inductive ColumnItem.FormatWritten : Option String → List Token → Prop
  | none : FormatWritten none []
  | some {t u : Token} {name : String} (word : t.content = .keyword .format)
      (content : u.content = .identifier name) (format : name ∈ Format.all.map Format.name) :
      FormatWritten (some name) [t, u]

/-- The tokens of the title of a column, of which there are none if it has no title. -/
inductive ColumnItem.TitleWritten : Option String → List Token → Prop
  | none : TitleWritten none []
  | some {t u : Token} {text : String} (word : t.content = .keyword .title)
      (content : u.content = .quoted text) : TitleWritten (some text) [t, u]

/-- The tokens that write a column: `field [FORMAT format] [AS text]`, or `AS text` alone. -/
inductive ColumnItem.Written : ColumnItem → List Token → Prop
  | field {t : Token} {name : String} {format title : Option String} {fs ts : List Token}
      (content : t.content = .identifier name) (formats : FormatWritten format fs)
      (titles : TitleWritten title ts) :
      Written ⟨some name, format, title, t.position⟩ (t :: (fs ++ ts))
  | title {t u : Token} {text : String} (word : t.content = .keyword .title)
      (content : u.content = .quoted text) : Written ⟨none, none, some text, t.position⟩ [t, u]

/-- The tokens that write one item or more, with a mark between neighbours. -/
inductive Token.Separated {α : Type} (written : α → List Token → Prop) (mark : Token.Content) :
    List α → List Token → Prop
  | single {a : α} {ts : List Token} (head : written a ts) : Separated written mark [a] ts
  | cons {a : α} {as : List α} {t : Token} {ts us : List Token} (head : written a ts)
      (between : t.content = mark) (tail : Separated written mark as us) :
      Separated written mark (a :: as) (ts ++ t :: us)

/-- The token that writes a value of a choice; the view `chart` may be written as a keyword. -/
inductive Choice.ValueWritten : Choice → String → Token → Prop
  | name {c : Choice} {value : String} {t : Token} (content : t.content = .identifier value)
      (mem : value ∈ c.values) : ValueWritten c value t
  | chart {t : Token} (content : t.content = .keyword (.choice .chart)) :
      ValueWritten .view "chart" t

/-- The tokens that write a clause. -/
inductive Clause.Written (known : String → Prop) : Clause → List Token → Prop
  | conditions {t : Token} {cs : List Condition} {ts : List Token}
      (word : t.content = .keyword .conditions)
      (items : Token.Separated (Condition.Written known) (.keyword .and) cs ts) :
      Written known ⟨.conditions cs, t.position⟩ (t :: ts)
  | columns {t : Token} {cs : List ColumnItem} {ts : List Token}
      (word : t.content = .keyword .columns)
      (items : Token.Separated ColumnItem.Written .comma cs ts) :
      Written known ⟨.columns cs, t.position⟩ (t :: ts)
  | choice {t u : Token} {c : Choice} {value : String} (word : t.content = .keyword (.choice c))
      (content : c.ValueWritten value u) : Written known ⟨.choice c value, t.position⟩ [t, u]

/-- The tokens that write a query: those of its clauses, one after the other. -/
inductive Clause.AllWritten (known : String → Prop) : List Clause → List Token → Prop
  | nil : AllWritten known [] []
  | cons {c : Clause} {cs : List Clause} {ts us : List Token} (head : c.Written known ts)
      (tail : AllWritten known cs us) : AllWritten known (c :: cs) (ts ++ us)

/-- The view `chart` is the only value of a choice that is also the name of a keyword. -/
theorem Choice.keyword_mem_values_iff (k : Keyword) (c : Choice) :
    String.ofList (k.spelling.toList.map Char.toLower) ∈ c.values ↔
      c = .view ∧ k = .choice .chart := by
  cases c <;> rcases k with _ | _ | ⟨_ | _ | _ | _⟩ | _ | _ | _ | _ <;> decide +kernel

/-! ## The tokens of a query -/

section Valid

/-- A token that is not an invalid one. -/
def Token.Valid (t : Token) : Prop :=
  ∀ fault, t.content ≠ .invalid fault

/-- The contents that parts of a query are written with. -/
def Token.Content.isPart : Token.Content → Bool
  | .comment _ | .invalid _ | .stop => false
  | _ => true

theorem Token.isPart_of_content {t : Token} {c : Token.Content} (h : t.content = c)
    (hc : c.isPart = true) : t.content.isPart = true := by
  rw [h]
  exact hc

theorem Token.valid_of_isPart {t : Token} (h : t.content.isPart = true) : t.Valid := by
  intro fault hf
  rw [hf] at h
  cases h

theorem Literal.Written.isPart {l : Literal} {ts : List Token} (h : l.Written ts) :
    ∀ t ∈ ts, t.content.isPart = true := by
  cases h with
  | number content => simpa using Token.isPart_of_content content rfl
  | text content _ => simpa using Token.isPart_of_content content rfl
  | date content _ => simpa using Token.isPart_of_content content rfl

theorem Test.Written.isPart {test : Test Literal} {ts : List Token} (h : test.Written ts) :
    ∀ t ∈ ts, t.content.isPart = true := by
  cases h with
  | compare content value =>
    rw [List.forall_mem_cons]
    exact ⟨Token.isPart_of_content content rfl, value.isPart⟩
  | range first lower middle upper =>
    rw [List.forall_mem_cons, List.forall_mem_append, List.forall_mem_cons]
    exact ⟨Token.isPart_of_content first rfl, lower.isPart,
      Token.isPart_of_content middle rfl, upper.isPart⟩

theorem Condition.Written.isPart {known : String → Prop} {c : Condition} {ts : List Token}
    (h : c.Written known ts) : ∀ t ∈ ts, t.content.isPart = true := by
  cases h with
  | mk content _ tests =>
    rw [List.forall_mem_cons]
    exact ⟨Token.isPart_of_content content rfl, tests.isPart⟩

theorem ColumnItem.FormatWritten.isPart {format : Option String} {ts : List Token}
    (h : FormatWritten format ts) : ∀ t ∈ ts, t.content.isPart = true := by
  cases h with
  | none => simp
  | some word content _ =>
    rw [List.forall_mem_cons, List.forall_mem_singleton]
    exact ⟨Token.isPart_of_content word rfl, Token.isPart_of_content content rfl⟩

theorem ColumnItem.TitleWritten.isPart {title : Option String} {ts : List Token}
    (h : TitleWritten title ts) : ∀ t ∈ ts, t.content.isPart = true := by
  cases h with
  | none => simp
  | some word content =>
    rw [List.forall_mem_cons, List.forall_mem_singleton]
    exact ⟨Token.isPart_of_content word rfl, Token.isPart_of_content content rfl⟩

theorem ColumnItem.Written.isPart {c : ColumnItem} {ts : List Token} (h : c.Written ts) :
    ∀ t ∈ ts, t.content.isPart = true := by
  cases h with
  | field content formats titles =>
    rw [List.forall_mem_cons, List.forall_mem_append]
    exact ⟨Token.isPart_of_content content rfl, formats.isPart, titles.isPart⟩
  | title word content =>
    rw [List.forall_mem_cons, List.forall_mem_singleton]
    exact ⟨Token.isPart_of_content word rfl, Token.isPart_of_content content rfl⟩

theorem Token.Separated.isPart {α : Type} {written : α → List Token → Prop}
    {mark : Token.Content} (hw : ∀ a ts, written a ts → ∀ t ∈ ts, t.content.isPart = true)
    (hm : mark.isPart = true) {as : List α} {ts : List Token}
    (h : Token.Separated written mark as ts) : ∀ t ∈ ts, t.content.isPart = true := by
  induction h with
  | single head => exact hw _ _ head
  | cons head between tail ih =>
    rw [List.forall_mem_append, List.forall_mem_cons]
    exact ⟨hw _ _ head, Token.isPart_of_content between hm, ih⟩

theorem Choice.ValueWritten.isPart {c : Choice} {value : String} {t : Token}
    (h : c.ValueWritten value t) : t.content.isPart = true := by
  cases h with
  | name content _ => exact Token.isPart_of_content content rfl
  | chart content => exact Token.isPart_of_content content rfl

theorem Clause.Written.isPart {known : String → Prop} {c : Clause} {ts : List Token}
    (h : c.Written known ts) : ∀ t ∈ ts, t.content.isPart = true := by
  cases h with
  | conditions word items =>
    rw [List.forall_mem_cons]
    exact ⟨Token.isPart_of_content word rfl, items.isPart (fun _ _ h => h.isPart) rfl⟩
  | columns word items =>
    rw [List.forall_mem_cons]
    exact ⟨Token.isPart_of_content word rfl, items.isPart (fun _ _ h => h.isPart) rfl⟩
  | choice word content =>
    rw [List.forall_mem_cons, List.forall_mem_singleton]
    exact ⟨Token.isPart_of_content word rfl, content.isPart⟩

/-- A query is written with nothing but its parts. -/
theorem Clause.AllWritten.isPart {known : String → Prop} {clauses : List Clause}
    {ts : List Token} (h : Clause.AllWritten known clauses ts) :
    ∀ t ∈ ts, t.content.isPart = true := by
  induction h with
  | nil => simp
  | cons head tail ih =>
    rw [List.forall_mem_append]
    exact ⟨head.isPart, ih⟩

/-- No token of a query is invalid. -/
theorem Clause.AllWritten.valid {known : String → Prop} {clauses : List Clause}
    {ts : List Token} (h : Clause.AllWritten known clauses ts) : ∀ t ∈ ts, t.Valid :=
  fun t ht => Token.valid_of_isPart (h.isPart t ht)

end Valid

section Known

variable {p q : String → Prop}

theorem Condition.Written.imp {c : Condition} {ts : List Token}
    (hpq : ∀ t ∈ ts, ∀ name, t.content = .identifier name → p name → q name)
    (h : c.Written p ts) : c.Written q ts := by
  cases h with
  | mk content field tests =>
    exact .mk content (hpq _ (List.mem_cons_self ..) _ content field) tests

theorem Token.Separated.imp {α : Type} {v w : α → List Token → Prop} {mark : Token.Content}
    {as : List α} {ts : List Token} (h : Token.Separated v mark as ts)
    (hvw : ∀ a us, us ⊆ ts → v a us → w a us) : Token.Separated w mark as ts := by
  induction h with
  | single head => exact .single (hvw _ _ (List.Subset.refl _) head)
  | cons head between tail ih =>
    refine .cons (hvw _ _ (List.subset_append_left ..) head) between (ih fun a us hus => ?_)
    refine hvw a us fun t ht => ?_
    exact List.mem_append_right _ (List.mem_cons_of_mem _ (hus ht))

theorem Clause.Written.imp {c : Clause} {ts : List Token}
    (hpq : ∀ t ∈ ts, ∀ name, t.content = .identifier name → p name → q name)
    (h : c.Written p ts) : c.Written q ts := by
  cases h with
  | conditions word items =>
    refine .conditions word (items.imp fun a us hus ha => ha.imp fun t ht => ?_)
    exact hpq t (List.mem_cons_of_mem _ (hus ht))
  | columns word items => exact .columns word items
  | choice word content => exact .choice word content

/-- What counts as a known field matters only for the identifiers among the tokens. -/
theorem Clause.AllWritten.imp {clauses : List Clause} {ts : List Token}
    (hpq : ∀ t ∈ ts, ∀ name, t.content = .identifier name → p name → q name)
    (h : Clause.AllWritten p clauses ts) : Clause.AllWritten q clauses ts := by
  induction h with
  | nil => exact .nil
  | cons head tail ih =>
    rw [List.forall_mem_append] at hpq
    exact .cons (head.imp hpq.1) (ih hpq.2)

end Known

end Worklog
