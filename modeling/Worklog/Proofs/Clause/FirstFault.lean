import Worklog.Proofs.Chain
import Worklog.Proofs.Clause.Blame

/-!
# The readers blame the first fault

Each reader that refuses its tokens blames the first of them that cannot stand where it does, from
literals up to whole queries (`blamesFirst_parseClauses`). The tokens before it can be completed
because each part has a sample; a sample of a condition names a field, so some field has to be
known.
-/

namespace Worklog

namespace Clause

variable {α : Type} {fields : List String} {stop : Position}

/-! ## Samples

Tokens with which a part that has been begun can be completed. -/

section Samples

/-- A token of a content, in no particular place. -/
def sample (content : Token.Content) : Token :=
  ⟨content, "", .start⟩

theorem begins_literal : Begins Literal.Written [] :=
  ⟨_, [sample (.number "0")], .number rfl⟩

theorem begins_test : Begins Test.Written [] := by
  obtain ⟨l, ls, hl⟩ := begins_literal
  exact ⟨_, sample (.operator .eq) :: ls, .compare rfl hl⟩

theorem begins_condition (hf : fields ≠ []) : Begins (Condition.Written (· ∈ fields)) [] := by
  obtain ⟨name, hn⟩ := List.exists_mem_of_ne_nil fields hf
  obtain ⟨test, ts, ht⟩ := begins_test
  exact ⟨_, sample (.identifier name) :: ts, .mk rfl hn ht⟩

theorem begins_column : Begins ColumnItem.Written [] :=
  ⟨_, [sample (.identifier "")], .field rfl .none .none⟩

theorem exists_valueWritten (c : Choice) : ∃ value t, c.ValueWritten value t := by
  have nonempty : c.values ≠ [] := by cases c <;> decide
  obtain ⟨value, hv⟩ := List.exists_mem_of_ne_nil c.values nonempty
  exact ⟨value, sample (.identifier value), .name rfl hv⟩

end Samples

/-! ## Conditions -/

theorem blamesFirst_parseLiteral {after : String} {tokens : List Token} {e : QueryError}
    (h : parseLiteral stop after tokens = .error e) :
    BlamesFirst (fun stop => parseLiteral stop after) (Begins Literal.Written) stop tokens e := by
  cases tokens with
  | nil =>
    cases h
    exact .at_end begins_literal rfl rfl
  | cons t rest =>
    obtain ⟨content, text, position⟩ := t
    cases content with
    | number digits => cases h
    | quoted text => cases h
    | _ =>
      cases h
      exact blamesFirst_refusal begins_literal (fun _ _ => rfl) rest

theorem parseTest_operator {t : Token} {op : Operator} (ht : t.content = .operator op)
    (stop : Position) (field : String) (rest : List Token) :
    parseTest stop field (t :: rest) =
      (parseLiteral stop s!"'{op.symbol}'" rest >>= fun l => .ok (.compare op l.1, l.2)) := by
  simp only [parseTest, ht]

/-- What follows the lower end of a range. -/
def parseUpper (low : Literal) : Reader (Test Literal × List Token) := fun stop tokens =>
  parseKeyword stop .and .rangeBroken tokens >>= fun rest =>
    parseLiteral stop "AND" rest >>= fun l => .ok (.range low l.1, l.2)

theorem parseTest_between {t : Token} (ht : t.content = .keyword .between) (stop : Position)
    (field : String) (rest : List Token) :
    parseTest stop field (t :: rest) =
      (parseLiteral stop "BETWEEN" rest >>= fun l => parseUpper l.1 stop l.2) := by
  simp only [parseTest, ht, parseUpper]

theorem parseUpper_and {t : Token} (ht : t.content = .keyword .and) (low : Literal)
    (stop : Position) (rest : List Token) :
    parseUpper low stop (t :: rest) =
      (parseLiteral stop "AND" rest >>= fun l => .ok (.range low l.1, l.2)) := by
  simp only [parseUpper, parseKeyword, ht, if_true]
  rfl

theorem parseUpper_of_ne {t : Token} (ht : t.content ≠ .keyword .and) (low : Literal)
    (stop : Position) (rest : List Token) :
    parseUpper low stop (t :: rest) = .error (refusal stop (t :: rest) .rangeBroken) := by
  simp only [parseUpper, parseKeyword, if_neg ht]
  rfl

theorem begins_range {t : Token} (ht : t.content = .keyword .between) {low : Literal}
    {ls : List Token} (hl : low.Written ls) : Begins Test.Written (t :: ls) := by
  obtain ⟨high, hs, hh⟩ := begins_literal
  exact ⟨_, sample (.keyword .and) :: hs, .range ht hl rfl hh⟩

theorem blamesFirst_parseUpper {t : Token} (ht : t.content = .keyword .between) {low : Literal}
    {ls : List Token} (hl : low.Written ls) {tokens : List Token} {e : QueryError}
    (h : parseUpper low stop tokens = .error e) :
    BlamesFirst (parseUpper low) (fun before => Begins Test.Written (t :: (ls ++ before)))
      stop tokens e := by
  have begun : Begins Test.Written (t :: (ls ++ [])) := by
    rw [List.append_nil]
    exact begins_range ht hl
  cases tokens with
  | nil =>
    cases h
    exact .at_end begun rfl rfl
  | cons u rest =>
    by_cases hu : u.content = .keyword .and
    · refine .cons (parseUpper_and hu low) ?_
      rw [parseUpper_and hu] at h
      rcases error_or_of_bind_error h with h | ⟨⟨high, r⟩, -, h⟩
      · refine .bind_left ((blamesFirst_parseLiteral h).mono ?_)
        rintro before ⟨high, more, hw⟩
        exact ⟨_, more, by simpa using Test.Written.range ht hl hu hw⟩
      · cases h
    · rw [parseUpper_of_ne hu] at h
      cases h
      exact blamesFirst_refusal begun (parseUpper_of_ne hu low) rest

theorem blamesFirst_parseTest {field : String} {tokens : List Token} {e : QueryError}
    (h : parseTest stop field tokens = .error e) :
    BlamesFirst (fun stop => parseTest stop field) (Begins Test.Written) stop tokens e := by
  cases tokens with
  | nil =>
    cases h
    exact .at_end begins_test rfl rfl
  | cons t rest =>
    by_cases hb : t.content = .keyword .between
    · refine .cons (fun stop rest => parseTest_between hb stop field rest) ?_
      rw [parseTest_between hb] at h
      rcases error_or_of_bind_error h with hl | ⟨⟨low, r⟩, hl, hu⟩
      · refine .bind_left ((blamesFirst_parseLiteral hl).mono ?_)
        rintro before ⟨low, ls, hl⟩
        obtain ⟨test, more, hw⟩ := begins_range hb hl
        exact ⟨test, ls ++ more, by simpa using hw⟩
      · obtain ⟨ls, rfl, hl, hr⟩ := readsAs_parseLiteral hl
        exact .bind_right hr (blamesFirst_parseUpper hb hl hu)
    · obtain ⟨content, text, position⟩ := t
      cases content with
      | operator op =>
        refine .cons (fun stop rest => parseTest_operator rfl stop field rest) ?_
        rw [parseTest_operator rfl] at h
        rcases error_or_of_bind_error h with h | ⟨⟨l, r⟩, -, h⟩
        · refine .bind_left ((blamesFirst_parseLiteral h).mono ?_)
          rintro before ⟨l, more, hw⟩
          exact ⟨_, more, .compare rfl hw⟩
        · cases h
      | keyword k =>
        cases k with
        | between => exact absurd rfl hb
        | _ =>
          cases h
          exact blamesFirst_refusal begins_test (fun _ _ => rfl) rest
      | _ =>
        cases h
        exact blamesFirst_refusal begins_test (fun _ _ => rfl) rest

theorem parseCondition_known {t : Token} {name : String} (ht : t.content = .identifier name)
    (hn : name ∈ fields) (stop : Position) (after : Keyword) (rest : List Token) :
    parseCondition fields stop after (t :: rest) =
      (parseTest stop t.text rest >>= fun x => .ok (⟨name, x.1, t.position⟩, x.2)) := by
  simp only [parseCondition, ht, hn, if_true]

theorem blamesFirst_parseCondition (hf : fields ≠ []) {after : Keyword} {tokens : List Token}
    {e : QueryError} (h : parseCondition fields stop after tokens = .error e) :
    BlamesFirst (fun stop => parseCondition fields stop after)
      (Begins (Condition.Written (· ∈ fields))) stop tokens e := by
  cases tokens with
  | nil =>
    cases h
    exact .at_end (begins_condition hf) rfl rfl
  | cons t rest =>
    obtain ⟨content, text, position⟩ := t
    cases content with
    | identifier name =>
      by_cases hn : name ∈ fields
      · refine .cons (fun stop rest => parseCondition_known rfl hn stop after rest) ?_
        rw [parseCondition_known rfl hn] at h
        rcases error_or_of_bind_error h with h | ⟨⟨test, r⟩, -, h⟩
        · refine .bind_left ((blamesFirst_parseTest h).mono ?_)
          rintro before ⟨test, more, hw⟩
          exact ⟨_, more, .mk rfl hn hw⟩
        · cases h
      · simp only [parseCondition, if_neg hn] at h
        cases h
        refine .at_head (begins_condition hf) rfl fun stop rest => ?_
        simp only [parseCondition, if_neg hn]
    | _ =>
      cases h
      exact blamesFirst_refusal (begins_condition hf) (fun _ _ => rfl) rest

theorem parseConditions_of_error {after : Keyword} {tokens : List Token} {e : QueryError}
    (h : parseCondition fields stop after tokens = .error e) :
    parseConditions fields stop after tokens = .error e := by
  unfold parseConditions
  split
  · rename_i e' he
    rw [h] at he; cases he; rfl
  · rename_i c he
    rw [h] at he; cases he
  · rename_i c t r he
    rw [h] at he; cases he

theorem parseConditions_and {after : Keyword} {tokens rest : List Token} {t : Token}
    {c : Condition} (h : parseCondition fields stop after tokens = .ok (c, t :: rest))
    (ht : t.content = .keyword .and) : parseConditions fields stop after tokens =
      (parseConditions fields stop .and rest >>= fun x => .ok (c :: x.1, x.2)) := by
  rw [parseConditions]
  split
  · rename_i e he
    rw [h] at he; cases he
  · rename_i c' he
    rw [h] at he; cases he
  · rename_i c' t' r he
    rw [h] at he
    cases he
    rw [if_pos ht]

theorem blamesFirst_parseConditions (hf : fields ≠ []) {after : Keyword} {tokens : List Token}
    {e : QueryError} (h : parseConditions fields stop after tokens = .error e) :
    BlamesFirst (fun stop => parseConditions fields stop after)
      (Begins (Token.Separated (Condition.Written (· ∈ fields)) (.keyword .and)))
      stop tokens e := by
  fun_induction parseConditions fields stop after tokens with
  | case1 after tokens e' he =>
    cases h
    refine ((blamesFirst_parseCondition hf he).mono ?_).imp fun _ _ => parseConditions_of_error
    rintro before ⟨c, more, hw⟩
    exact ⟨[c], more, .single hw⟩
  | case2 => cases h
  | case3 after tokens c t rest hc ht ih =>
    rcases error_or_of_bind_error h with h | ⟨⟨cs, r⟩, -, h⟩
    · obtain ⟨ts, rfl, hw, hr⟩ := readsAs_parseCondition hc
      rw [← List.singleton_append, ← List.append_assoc]
      refine .behind (fun stop rest he => ?_) ((ih h).mono ?_)
      · rw [List.append_assoc]
        refine (parseConditions_and (hr stop (t :: rest) rfl) ht).trans ?_
        simp only [he]
        rfl
      · rintro before ⟨cs, more, hs⟩
        exact ⟨c :: cs, more, by simpa using Token.Separated.cons hw ht hs⟩
    · cases h
  | case4 => cases h

/-! ## Columns -/

theorem parseFormat_of_ne {t : Token} (ht : t.content ≠ .keyword .format) (stop : Position)
    (rest : List Token) : parseFormat stop (t :: rest) = .ok (none, t :: rest) := by
  simp only [parseFormat, if_neg ht]

theorem parseTitle_of_ne {t : Token} (ht : t.content ≠ .keyword .title) (stop : Position)
    (rest : List Token) : parseTitle stop (t :: rest) = .ok (none, t :: rest) := by
  simp only [parseTitle, if_neg ht]

theorem blamesFirst_parseFormat {tokens : List Token} {e : QueryError}
    (h : parseFormat stop tokens = .error e) :
    BlamesFirst parseFormat (Begins ColumnItem.FormatWritten) stop tokens e := by
  cases tokens with
  | nil => cases h
  | cons t rest =>
    by_cases ht : t.content = .keyword .format
    · have begun : Begins ColumnItem.FormatWritten [t] :=
        ⟨_, [sample (.identifier Format.currency.name)], .some ht rfl (by decide)⟩
      refine .cons (n := fun stop rest => parseFormat stop (t :: rest)) (fun _ _ => rfl) ?_
      cases rest with
      | nil =>
        simp only [parseFormat, ht, if_true] at h
        cases h
        exact .at_end begun rfl (by simp only [parseFormat, ht, if_true])
      | cons u rest =>
        obtain ⟨content, text, position⟩ := u
        cases content with
        | identifier name =>
          by_cases hn : name ∈ Format.all.map Format.name
          · simp only [parseFormat, ht, if_true, if_pos hn] at h
            cases h
          · simp only [parseFormat, ht, if_true, if_neg hn] at h
            cases h
            refine blamesFirst_refusal begun (fun stop rest => ?_) rest
            simp only [parseFormat, ht, if_true, if_neg hn]
        | _ =>
          simp only [parseFormat, ht, if_true] at h
          cases h
          exact blamesFirst_refusal begun
            (fun _ _ => by simp only [parseFormat, ht, if_true]) rest
    · rw [parseFormat_of_ne ht] at h
      cases h

/-- A title that is announced is missed by the token that follows the word. -/
theorem blamesFirst_parseTitle_title {t : Token} (ht : t.content = .keyword .title)
    {rest : List Token} {e : QueryError} (h : parseTitle stop (t :: rest) = .error e) :
    BlamesFirst (fun stop rest => parseTitle stop (t :: rest))
      (fun before => Begins ColumnItem.TitleWritten (t :: before)) stop rest e := by
  have begun : Begins ColumnItem.TitleWritten [t] := ⟨_, [sample (.quoted "")], .some ht rfl⟩
  cases rest with
  | nil =>
    simp only [parseTitle, ht, if_true] at h
    cases h
    exact .at_end begun rfl (by simp only [parseTitle, ht, if_true])
  | cons u rest =>
    obtain ⟨content, text, position⟩ := u
    cases content with
    | quoted title =>
      simp only [parseTitle, ht, if_true] at h
      cases h
    | _ =>
      simp only [parseTitle, ht, if_true] at h
      cases h
      exact blamesFirst_refusal begun (fun _ _ => by simp only [parseTitle, ht, if_true]) rest

theorem blamesFirst_parseTitle {tokens : List Token} {e : QueryError}
    (h : parseTitle stop tokens = .error e) :
    BlamesFirst parseTitle (Begins ColumnItem.TitleWritten) stop tokens e := by
  cases tokens with
  | nil => cases h
  | cons t rest =>
    by_cases ht : t.content = .keyword .title
    · exact .cons (fun _ _ => rfl) (blamesFirst_parseTitle_title ht h)
    · rw [parseTitle_of_ne ht] at h
      cases h

/-- What follows the field of a column. -/
def parseOptions (name : String) (position : Position) : Reader (ColumnItem × List Token) :=
  fun stop tokens => parseFormat stop tokens >>= fun f => parseTitle stop f.2 >>= fun a =>
    .ok (⟨some name, f.1, a.1, position⟩, a.2)

theorem parseColumn_field {t : Token} {name : String} (ht : t.content = .identifier name)
    (stop : Position) (rest : List Token) :
    parseColumn stop (t :: rest) = parseOptions name t.position stop rest := by
  simp only [parseColumn, ht, parseOptions]

theorem parseColumn_title {t : Token} (ht : t.content = .keyword .title) (stop : Position)
    (rest : List Token) : parseColumn stop (t :: rest) =
      (parseTitle stop (t :: rest) >>= fun a => .ok (⟨none, none, a.1, t.position⟩, a.2)) := by
  simp only [parseColumn, ht]

theorem blamesFirst_parseOptions {t : Token} {name : String} (ht : t.content = .identifier name)
    {tokens : List Token} {e : QueryError}
    (h : parseOptions name t.position stop tokens = .error e) :
    BlamesFirst (parseOptions name t.position)
      (fun before => Begins ColumnItem.Written (t :: before)) stop tokens e := by
  rcases error_or_of_bind_error h with hf | ⟨⟨format, r⟩, hf, h'⟩
  · refine .bind_left ((blamesFirst_parseFormat hf).mono ?_)
    rintro before ⟨format, more, hw⟩
    exact ⟨_, more, by simpa using ColumnItem.Written.field ht hw .none⟩
  · obtain ⟨fs, rfl, hw, hr⟩ := readsAs_parseFormat hf
    rcases error_or_of_bind_error h' with ha | ⟨⟨title, r'⟩, -, h'⟩
    · have second := (blamesFirst_parseTitle ha).bind_left (f := fun _ a =>
        .ok ((⟨some name, format, a.1, t.position⟩ : ColumnItem), a.2))
      refine .bind_right hr (second.mono ?_)
      rintro before ⟨title, more, ha⟩
      exact ⟨_, more, by simpa using ColumnItem.Written.field ht hw ha⟩
    · cases h'

/-- A title that is written is a column by itself. -/
theorem written_of_titleWritten {t : Token} {ts : List Token} {title : Option String}
    (h : ColumnItem.TitleWritten title (t :: ts)) :
    ColumnItem.Written ⟨none, none, title, t.position⟩ (t :: ts) := by
  cases h with
  | some word content => exact .title word content

theorem blamesFirst_parseColumn {tokens : List Token} {e : QueryError}
    (h : parseColumn stop tokens = .error e) :
    BlamesFirst parseColumn (Begins ColumnItem.Written) stop tokens e := by
  cases tokens with
  | nil =>
    cases h
    exact .at_end begins_column rfl rfl
  | cons t rest =>
    by_cases ht : t.content = .keyword .title
    · rw [parseColumn_title ht] at h
      rcases error_or_of_bind_error h with h | ⟨⟨title, r⟩, -, h⟩
      · refine .cons (parseColumn_title ht)
          (.bind_left ((blamesFirst_parseTitle_title ht h).mono ?_))
        rintro before ⟨title, more, hw⟩
        exact ⟨_, more, written_of_titleWritten hw⟩
      · cases h
    · obtain ⟨content, text, position⟩ := t
      cases content with
      | identifier name =>
        rw [parseColumn_field rfl] at h
        exact .cons (parseColumn_field rfl) (blamesFirst_parseOptions rfl h)
      | keyword k =>
        cases k with
        | title => exact absurd rfl ht
        | _ =>
          cases h
          exact blamesFirst_refusal begins_column (fun _ _ => rfl) rest
      | _ =>
        cases h
        exact blamesFirst_refusal begins_column (fun _ _ => rfl) rest

theorem parseColumns_of_error {tokens : List Token} {e : QueryError}
    (h : parseColumn stop tokens = .error e) : parseColumns stop tokens = .error e := by
  unfold parseColumns
  split
  · rename_i e' he
    rw [h] at he; cases he; rfl
  · rename_i c he
    rw [h] at he; cases he
  · rename_i c t r he
    rw [h] at he; cases he

theorem parseColumns_comma {tokens rest : List Token} {t : Token} {c : ColumnItem}
    (h : parseColumn stop tokens = .ok (c, t :: rest)) (ht : t.content = .comma) :
    parseColumns stop tokens = (parseColumns stop rest >>= fun x => .ok (c :: x.1, x.2)) := by
  rw [parseColumns]
  split
  · rename_i e he
    rw [h] at he; cases he
  · rename_i c' he
    rw [h] at he; cases he
  · rename_i c' t' r he
    rw [h] at he
    cases he
    rw [if_pos ht]

theorem blamesFirst_parseColumns {tokens : List Token} {e : QueryError}
    (h : parseColumns stop tokens = .error e) :
    BlamesFirst parseColumns (Begins (Token.Separated ColumnItem.Written .comma))
      stop tokens e := by
  fun_induction parseColumns stop tokens with
  | case1 tokens e' he =>
    cases h
    refine ((blamesFirst_parseColumn he).mono ?_).imp fun _ _ => parseColumns_of_error
    rintro before ⟨c, more, hw⟩
    exact ⟨[c], more, .single hw⟩
  | case2 => cases h
  | case3 tokens c t rest hc ht ih =>
    rcases error_or_of_bind_error h with h | ⟨⟨cs, r⟩, -, h⟩
    · obtain ⟨ts, rfl, hw, hr⟩ := readsAs_parseColumn hc
      rw [← List.singleton_append, ← List.append_assoc]
      refine .behind (fun stop rest he => ?_) ((ih h).mono ?_)
      · rw [List.append_assoc]
        refine (parseColumns_comma (hr stop (t :: rest) rfl) ht).trans ?_
        simp only [he]
        rfl
      · rintro before ⟨cs, more, hs⟩
        exact ⟨c :: cs, more, by simpa using Token.Separated.cons hw ht hs⟩
    · cases h
  | case4 => cases h

/-! ## Clauses -/

theorem parseChoice_congr {c : Choice} {t : Token} {rest : List Token} {e : QueryError}
    (h : parseChoice stop c (t :: rest) = .error e) (stop' : Position) (rest' : List Token) :
    parseChoice stop' c (t :: rest') = .error e := by
  rw [← h]
  simp only [parseChoice] at h ⊢
  split at h
  · split at h
    · cases h
    · rename_i hn
      rw [if_neg hn, if_neg hn]
      rfl
  · rfl

theorem position_of_parseChoice {c : Choice} {t : Token} {rest : List Token} {e : QueryError}
    (h : parseChoice stop c (t :: rest) = .error e) : e.position = some t.position := by
  simp only [parseChoice] at h
  split at h
  · split at h
    · cases h
    · split at h
      · cases h
        rfl
      · cases h
        exact position_refusal ..
  · cases h
    exact position_refusal ..

theorem blamesFirst_parseChoice {c : Choice} {viable : List Token → Prop} (hv : viable [])
    {tokens : List Token} {e : QueryError} (h : parseChoice stop c tokens = .error e) :
    BlamesFirst (fun stop => parseChoice stop c) viable stop tokens e := by
  cases tokens with
  | nil =>
    cases h
    exact .at_end hv rfl rfl
  | cons t rest => exact .at_head hv (position_of_parseChoice h) (parseChoice_congr h)

/-- A clause that may not end before some tokens is refused because of the first of them. -/
theorem blamesFirst_boundary {a : α} {viable : List Token → Prop} (hv : viable [])
    {rest : List Token} (hb : atBoundary rest = false) {refuse : Position → List Token → QueryError}
    (hp : ∀ t rest, rest.head? = some t → (refuse stop rest).position = some t.position)
    (hc : ∀ t stop stop' rest rest', refuse stop (t :: rest) = refuse stop' (t :: rest')) :
    BlamesFirst (fun stop rest => if atBoundary rest then .ok (a, rest)
      else .error (refuse stop rest)) viable stop rest (refuse stop rest) := by
  cases rest with
  | nil => cases hb
  | cons t rest =>
    refine .at_head hv (hp t _ rfl) fun stop' rest' => ?_
    have same : atBoundary (t :: rest') = false := hb
    rw [same, hc t stop' stop rest' rest]
    rfl

theorem conditionsRefusal_congr (t : Token) (stop stop' : Position) (rest rest' : List Token) :
    conditionsRefusal stop (t :: rest) = conditionsRefusal stop' (t :: rest') :=
  rfl

theorem position_conditionsRefusal {t : Token} {rest : List Token} (h : rest.head? = some t) :
    (conditionsRefusal stop rest).position = some t.position := by
  obtain ⟨rest, rfl⟩ := List.head?_eq_some_iff.1 h
  simp only [conditionsRefusal]
  split
  · rfl
  · exact position_refusal ..

theorem position_clauseRefusal (t : Token) (rest : List Token) :
    (clauseRefusal stop (t :: rest)).position = some t.position := by
  simp only [clauseRefusal]
  split <;> exact position_refusal ..

theorem blamesFirst_parseBody (hf : fields ≠ []) {t : Token} {k : Keyword}
    (ht : t.content = .keyword k) (hk : k.beginsClause = true) {tokens : List Token}
    {e : QueryError} (h : parseBody fields stop k tokens = .error e) :
    BlamesFirst (fun stop => parseBody fields stop k)
      (fun before => Begins (Clause.Written (· ∈ fields)) (t :: before)) stop tokens e := by
  cases k with
  | conditions =>
    rcases error_or_of_bind_error h with hc | ⟨⟨cs, r⟩, hc, h'⟩
    · refine .bind_left (r := fun stop => parseConditions fields stop .conditions)
        ((blamesFirst_parseConditions hf hc).mono ?_)
      rintro before ⟨cs, more, hs⟩
      exact ⟨_, more, .conditions ht hs⟩
    · dsimp only at h'
      split at h'
      · cases h'
      · rename_i hb
        cases h'
        obtain ⟨ts, rfl, hs, hr⟩ := readsAs_parseConditions hc
        refine .bind_right hr (blamesFirst_boundary ?_ (by simpa using hb) ?_ ?_)
        · exact ⟨_, [], by simpa using Clause.Written.conditions ht hs⟩
        · exact fun _ _ => position_conditionsRefusal
        · exact conditionsRefusal_congr
  | columns =>
    rcases error_or_of_bind_error h with hc | ⟨⟨cs, r⟩, hc, h'⟩
    · refine .bind_left (r := parseColumns) ((blamesFirst_parseColumns hc).mono ?_)
      rintro before ⟨cs, more, hs⟩
      exact ⟨_, more, .columns ht hs⟩
    · dsimp only at h'
      split at h'
      · cases h'
      · rename_i hb
        cases h'
        obtain ⟨ts, rfl, hs, hr⟩ := readsAs_parseColumns hc
        refine .bind_right hr (blamesFirst_boundary ?_ (by simpa using hb) ?_ ?_)
        · exact ⟨_, [], by simpa using Clause.Written.columns ht hs⟩
        · intro t rest ht
          obtain ⟨rest, rfl⟩ := List.head?_eq_some_iff.1 ht
          exact position_refusal ..
        · intro t stop stop' rest rest'
          rfl
  | choice c =>
    obtain ⟨value, u, hu⟩ := exists_valueWritten c
    rcases error_or_of_bind_error h with hc | ⟨⟨v, r⟩, -, h'⟩
    · exact .bind_left (r := fun stop => parseChoice stop c)
        (blamesFirst_parseChoice ⟨_, [u], .choice ht hu⟩ hc)
    · cases h'
  | and => cases hk
  | between => cases hk
  | format => cases hk
  | title => cases hk

theorem parseClauses_keyword {t : Token} {k : Keyword} (ht : t.content = .keyword k)
    (hk : k.beginsClause = true) (stop : Position) (tokens : List Token) :
    parseClauses fields stop (t :: tokens) = (parseBody fields stop k tokens >>= fun b =>
      parseClauses fields stop b.2 >>= fun clauses => .ok (⟨b.1, t.position⟩ :: clauses)) := by
  rw [parseClauses]
  simp only [ht, hk, if_true]
  split
  · rename_i e he
    rw [he]
    rfl
  · rename_i b rest he
    rw [he]
    rfl

/-- Tokens that begin no clause are refused because of the first of them. -/
theorem parseClauses_of_not_beginsClause {t : Token} (ht : t.beginsClause = false)
    (stop : Position) (rest : List Token) :
    parseClauses fields stop (t :: rest) = .error (clauseRefusal stop (t :: rest)) := by
  unfold Token.beginsClause at ht
  rw [parseClauses]
  split
  · rename_i k hk
    rw [hk] at ht
    rw [if_neg (by simpa using ht)]
  · rfl

/-- A query that is refused is refused because of the first token that cannot stand in one. -/
theorem blamesFirst_parseClauses (hf : fields ≠ []) {tokens : List Token} {e : QueryError}
    (h : parseClauses fields stop tokens = .error e) :
    BlamesFirst (parseClauses fields) (Begins (Clause.AllWritten (· ∈ fields))) stop tokens e := by
  fun_induction parseClauses fields stop tokens with
  | case1 => cases h
  | case2 t rest k ht hk e' he =>
    cases h
    refine .cons (parseClauses_keyword ht hk)
      (.bind_left (r := fun stop => parseBody fields stop k) ?_)
    refine (blamesFirst_parseBody hf ht hk he).mono ?_
    rintro before ⟨c, more, hw⟩
    exact ⟨[c], more, by simpa using Clause.AllWritten.cons hw .nil⟩
  | case3 t rest k ht hk b rest' hb ih =>
    rcases error_or_of_bind_error h with h | ⟨clauses, -, h⟩
    · obtain ⟨ts, rfl, hw, hr⟩ := readsAs_parseBody ht hb
      have later := (ih h).bind_left (f := fun _ clauses =>
        .ok ((⟨b, t.position⟩ : Clause) :: clauses))
      refine .cons (parseClauses_keyword ht hk) (.bind_right hr (later.mono ?_))
      rintro before ⟨clauses, more, hcs⟩
      exact ⟨_, more, by simpa using Clause.AllWritten.cons hw hcs⟩
    · cases h
  | case4 t rest k ht hk =>
    cases h
    have hb : t.beginsClause = false := by
      simpa only [Token.beginsClause, ht, Bool.not_eq_true] using hk
    exact .at_head ⟨_, [], .nil⟩ (position_clauseRefusal t rest)
      (parseClauses_of_not_beginsClause hb)
  | case5 t rest hk =>
    cases h
    have hb : t.beginsClause = false := by
      unfold Token.beginsClause
      split
      · rename_i k ht
        exact absurd ht (hk k)
      · rfl
    exact .at_head ⟨_, [], .nil⟩ (position_clauseRefusal t rest)
      (parseClauses_of_not_beginsClause hb)

end Clause

end Worklog
