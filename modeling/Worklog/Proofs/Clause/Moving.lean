import Worklog.Proofs.Clause.Grammar
import Worklog.Proofs.Token.Joining

/-!
# Clauses that stand elsewhere

Clauses keep the positions of the tokens that write them, and nothing else that depends on where
these stand: tokens whose positions are changed write the clauses with the positions changed in the
same way (`AllWritten.moved`). Two queries that are written one behind the other are one query of
all the clauses (`AllWritten.append`).
-/

namespace Worklog

/-- The test with its values changed. -/
def Test.map {α β : Type} (f : α → β) : Test α → Test β
  | .compare op a => .compare op (f a)
  | .range low high => .range (f low) (f high)

section Moved

variable (f : Position → Position)

/-- The literal with its position changed. -/
def Literal.moved (l : Literal) : Literal :=
  { l with position := f l.position }

/-- The condition with its positions changed. -/
def Condition.moved (c : Condition) : Condition :=
  { c with test := c.test.map (Literal.moved f), position := f c.position }

/-- The column with its position changed. -/
def ColumnItem.moved (c : ColumnItem) : ColumnItem :=
  { c with position := f c.position }

/-- What a clause says with its positions changed. -/
def Clause.Body.moved : Clause.Body → Clause.Body
  | .conditions items => .conditions (items.map (Condition.moved f))
  | .columns items => .columns (items.map (ColumnItem.moved f))
  | .choice c value => .choice c value
  | .unknown name => .unknown name

/-- The clause with its positions changed. -/
def Clause.moved (c : Clause) : Clause :=
  ⟨c.body.moved f, f c.position⟩

end Moved

variable {known : String → Prop} (f : Position → Position)

theorem Literal.Written.moved {l : Literal} {ts : List Token} (h : l.Written ts) :
    (l.moved f).Written (ts.map (Token.moved f)) := by
  cases h with
  | @number t digits content => exact .number (t := t.moved f) content
  | @text t s content shape => exact .text (t := t.moved f) content shape
  | @date t s content shape => exact .date (t := t.moved f) content shape

theorem Test.Written.moved {test : Test Literal} {ts : List Token} (h : test.Written ts) :
    Test.Written (test.map (Literal.moved f)) (ts.map (Token.moved f)) := by
  cases h with
  | @compare t op l ls content value => exact .compare (t := t.moved f) content (value.moved f)
  | @range t u low high ls hs first lower middle upper =>
    rw [List.map_cons, List.map_append, List.map_cons]
    exact .range (t := t.moved f) (u := u.moved f) first (lower.moved f) middle (upper.moved f)

theorem Condition.Written.moved {c : Condition} {ts : List Token} (h : c.Written known ts) :
    (c.moved f).Written known (ts.map (Token.moved f)) := by
  cases h with
  | @mk t name test ts content field tests =>
    exact .mk (t := t.moved f) content field (tests.moved f)

theorem ColumnItem.FormatWritten.moved {format : Option String} {ts : List Token}
    (h : FormatWritten format ts) : FormatWritten format (ts.map (Token.moved f)) := by
  cases h with
  | none => exact .none
  | @some t u name word content format =>
    exact .some (t := t.moved f) (u := u.moved f) word content format

theorem ColumnItem.TitleWritten.moved {title : Option String} {ts : List Token}
    (h : TitleWritten title ts) : TitleWritten title (ts.map (Token.moved f)) := by
  cases h with
  | none => exact .none
  | @some t u text word content => exact .some (t := t.moved f) (u := u.moved f) word content

theorem ColumnItem.Written.moved {c : ColumnItem} {ts : List Token} (h : c.Written ts) :
    (c.moved f).Written (ts.map (Token.moved f)) := by
  cases h with
  | @field t name format title fs ts content formats titles =>
    rw [List.map_cons, List.map_append]
    exact .field (t := t.moved f) content (formats.moved f) (titles.moved f)
  | @title t u text word content => exact .title (t := t.moved f) (u := u.moved f) word content

theorem Token.Separated.moved {α : Type} {written : α → List Token → Prop} {mark : Token.Content}
    {g : α → α} (hg : ∀ a ts, written a ts → written (g a) (ts.map (Token.moved f))) {as : List α}
    {ts : List Token} (h : Separated written mark as ts) :
    Separated written mark (as.map g) (ts.map (Token.moved f)) := by
  induction h with
  | single head => exact .single (hg _ _ head)
  | @cons a as t ts us head between tail ih =>
    rw [List.map_append, List.map_cons]
    exact .cons (t := t.moved f) (hg _ _ head) between ih

theorem Choice.ValueWritten.moved {c : Choice} {value : String} {t : Token}
    (h : c.ValueWritten value t) : c.ValueWritten value (t.moved f) := by
  cases h with
  | name content mem => exact .name content mem
  | chart content => exact .chart content

namespace Clause

theorem Written.moved {c : Clause} {ts : List Token} (h : c.Written known ts) :
    (c.moved f).Written known (ts.map (Token.moved f)) := by
  cases h with
  | @conditions t cs ts word items =>
    exact .conditions (t := t.moved f) word (items.moved f fun _ _ h => h.moved f)
  | @columns t cs ts word items =>
    exact .columns (t := t.moved f) word (items.moved f fun _ _ h => h.moved f)
  | @choice t u c value word content =>
    exact .choice (t := t.moved f) (u := u.moved f) word (content.moved f)

theorem AllWritten.moved {cs : List Clause} {ts : List Token} (h : AllWritten known cs ts) :
    AllWritten known (cs.map (Clause.moved f)) (ts.map (Token.moved f)) := by
  induction h with
  | nil => exact .nil
  | cons head tail ih =>
    rw [List.map_append]
    exact .cons (head.moved f) ih

theorem AllWritten.append {cs ds : List Clause} {ts us : List Token}
    (hc : AllWritten known cs ts) (hd : AllWritten known ds us) :
    AllWritten known (cs ++ ds) (ts ++ us) := by
  induction hc with
  | nil => exact hd
  | cons head tail ih =>
    rw [List.append_assoc]
    exact .cons head ih

end Clause

end Worklog
