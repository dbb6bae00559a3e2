import Worklog.Proofs.Clause.Grammar

/-!
# What is read is written

Each reader returns a part of the tree and the tokens that are left. The tokens that it took write
the part it returned: tokens that are read as clauses write them (`allWritten_of_parseClauses`).
The induction follows the recursion of the readers, and the proof of each reader cites that of the
readers it calls.
-/

namespace Worklog

namespace Clause

variable {fields : List String} {stop : Position}

theorem written_of_parseLiteral {after : String} {tokens rest : List Token} {l : Literal}
    (h : parseLiteral stop after tokens = .ok (l, rest)) :
    ∃ ts, tokens = ts ++ rest ∧ l.Written ts := by
  cases tokens with
  | nil => cases h
  | cons t tokens =>
    simp only [parseLiteral] at h
    split at h
    · rename_i digits ht
      cases h
      exact ⟨[t], rfl, .number ht⟩
    · rename_i s ht
      cases h
      refine ⟨[t], rfl, ?_⟩
      cases hs : Date.looksLikeLine s.toList with
      | true => exact .date ht hs
      | false => exact .text ht hs
    · cases h

theorem eq_of_parseKeyword {k : Keyword} {cause : String → Cause} {tokens rest : List Token}
    (h : parseKeyword stop k cause tokens = .ok rest) :
    ∃ t, tokens = t :: rest ∧ t.content = .keyword k := by
  cases tokens with
  | nil => cases h
  | cons t tokens =>
    simp only [parseKeyword] at h
    split at h
    · rename_i ht
      cases h
      exact ⟨t, rfl, ht⟩
    · cases h

theorem written_of_parseTest {field : String} {tokens rest : List Token} {test : Test Literal}
    (h : parseTest stop field tokens = .ok (test, rest)) :
    ∃ ts, tokens = ts ++ rest ∧ test.Written ts := by
  cases tokens with
  | nil => cases h
  | cons t tokens =>
    simp only [parseTest] at h
    split at h
    · rename_i op ht
      obtain ⟨⟨l, r⟩, hl, h⟩ := ok_of_bind_ok h
      cases h
      obtain ⟨ls, rfl, hw⟩ := written_of_parseLiteral hl
      exact ⟨t :: ls, rfl, .compare ht hw⟩
    · rename_i ht
      obtain ⟨⟨low, r⟩, hl, h⟩ := ok_of_bind_ok h
      obtain ⟨r', hk, h⟩ := ok_of_bind_ok h
      obtain ⟨⟨high, r''⟩, hu, h⟩ := ok_of_bind_ok h
      cases h
      obtain ⟨ls, rfl, hlw⟩ := written_of_parseLiteral hl
      obtain ⟨u, rfl, hm⟩ := eq_of_parseKeyword hk
      obtain ⟨hs, rfl, huw⟩ := written_of_parseLiteral hu
      exact ⟨t :: (ls ++ u :: hs), by simp, .range ht hlw hm huw⟩
    · cases h

theorem written_of_parseCondition {after : Keyword} {tokens rest : List Token} {c : Condition}
    (h : parseCondition fields stop after tokens = .ok (c, rest)) :
    ∃ ts, tokens = ts ++ rest ∧ c.Written (· ∈ fields) ts := by
  cases tokens with
  | nil => cases h
  | cons t tokens =>
    simp only [parseCondition] at h
    split at h
    · rename_i name ht
      split at h
      · rename_i hf
        obtain ⟨⟨test, r⟩, hr, h⟩ := ok_of_bind_ok h
        cases h
        obtain ⟨ts, rfl, hw⟩ := written_of_parseTest hr
        exact ⟨t :: ts, rfl, .mk ht hf hw⟩
      · cases h
    · cases h

theorem written_of_parseFormat {tokens rest : List Token} {format : Option String}
    (h : parseFormat stop tokens = .ok (format, rest)) :
    ∃ ts, tokens = ts ++ rest ∧ ColumnItem.FormatWritten format ts := by
  match tokens with
  | [] => cases h; exact ⟨[], rfl, .none⟩
  | [t] =>
    simp only [parseFormat] at h
    split at h
    · cases h
    · cases h; exact ⟨[], rfl, .none⟩
  | t :: u :: tokens =>
    simp only [parseFormat] at h
    split at h
    · rename_i ht
      split at h
      · rename_i name hu
        split at h
        · rename_i hf
          cases h
          exact ⟨[t, u], rfl, .some ht hu hf⟩
        · cases h
      · cases h
    · cases h; exact ⟨[], rfl, .none⟩

theorem written_of_parseTitle {tokens rest : List Token} {title : Option String}
    (h : parseTitle stop tokens = .ok (title, rest)) :
    ∃ ts, tokens = ts ++ rest ∧ ColumnItem.TitleWritten title ts := by
  match tokens with
  | [] => cases h; exact ⟨[], rfl, .none⟩
  | [t] =>
    simp only [parseTitle] at h
    split at h
    · cases h
    · cases h; exact ⟨[], rfl, .none⟩
  | t :: u :: tokens =>
    simp only [parseTitle] at h
    split at h
    · rename_i ht
      split at h
      · rename_i text hu
        cases h
        exact ⟨[t, u], rfl, .some ht hu⟩
      · cases h
    · cases h; exact ⟨[], rfl, .none⟩

theorem written_of_parseColumn {tokens rest : List Token} {c : ColumnItem}
    (h : parseColumn stop tokens = .ok (c, rest)) : ∃ ts, tokens = ts ++ rest ∧ c.Written ts := by
  cases tokens with
  | nil => cases h
  | cons t tokens =>
    simp only [parseColumn] at h
    split at h
    · rename_i name ht
      obtain ⟨⟨format, r⟩, hf, h⟩ := ok_of_bind_ok h
      obtain ⟨⟨title, r'⟩, ha, h⟩ := ok_of_bind_ok h
      cases h
      obtain ⟨fs, rfl, hfw⟩ := written_of_parseFormat hf
      obtain ⟨ts, rfl, htw⟩ := written_of_parseTitle ha
      exact ⟨t :: (fs ++ ts), by simp, .field ht hfw htw⟩
    · rename_i ht
      obtain ⟨⟨title, r⟩, ha, h⟩ := ok_of_bind_ok h
      cases h
      obtain ⟨ts, hts, htw⟩ := written_of_parseTitle ha
      cases htw with
      | none =>
        -- The column began with `AS`, so reading its title has used tokens up.
        have := length_of_parseTitle_title ht ha
        rw [hts] at this
        simp at this
      | some word content =>
        simp only [List.cons_append, List.nil_append, List.cons.injEq] at hts
        obtain ⟨rfl, rfl⟩ := hts
        exact ⟨_, rfl, .title word content⟩
    · cases h

theorem separated_of_parseConditions {after : Keyword} {tokens rest : List Token}
    {cs : List Condition} (h : parseConditions fields stop after tokens = .ok (cs, rest)) :
    ∃ ts, tokens = ts ++ rest ∧
      Token.Separated (Condition.Written (· ∈ fields)) (.keyword .and) cs ts := by
  fun_induction parseConditions fields stop after tokens generalizing cs with
  | case1 => cases h
  | case2 after tokens c hc =>
    cases h
    obtain ⟨ts, rfl, hw⟩ := written_of_parseCondition hc
    exact ⟨ts, rfl, .single hw⟩
  | case3 after tokens c t r hc ht ih =>
    obtain ⟨⟨cs', r'⟩, hr, h⟩ := ok_of_bind_ok h
    cases h
    obtain ⟨ts, rfl, hw⟩ := written_of_parseCondition hc
    obtain ⟨us, rfl, hs⟩ := ih hr
    exact ⟨ts ++ t :: us, by simp, .cons hw ht hs⟩
  | case4 after tokens c t r hc _ =>
    cases h
    obtain ⟨ts, rfl, hw⟩ := written_of_parseCondition hc
    exact ⟨ts, rfl, .single hw⟩

theorem separated_of_parseColumns {tokens rest : List Token} {cs : List ColumnItem}
    (h : parseColumns stop tokens = .ok (cs, rest)) :
    ∃ ts, tokens = ts ++ rest ∧ Token.Separated ColumnItem.Written .comma cs ts := by
  fun_induction parseColumns stop tokens generalizing cs with
  | case1 => cases h
  | case2 tokens c hc =>
    cases h
    obtain ⟨ts, rfl, hw⟩ := written_of_parseColumn hc
    exact ⟨ts, rfl, .single hw⟩
  | case3 tokens c t r hc ht ih =>
    obtain ⟨⟨cs', r'⟩, hr, h⟩ := ok_of_bind_ok h
    cases h
    obtain ⟨ts, rfl, hw⟩ := written_of_parseColumn hc
    obtain ⟨us, rfl, hs⟩ := ih hr
    exact ⟨ts ++ t :: us, by simp, .cons hw ht hs⟩
  | case4 tokens c t r hc _ =>
    cases h
    obtain ⟨ts, rfl, hw⟩ := written_of_parseColumn hc
    exact ⟨ts, rfl, .single hw⟩

theorem written_of_parseChoice {c : Choice} {tokens rest : List Token} {value : String}
    (h : parseChoice stop c tokens = .ok (value, rest)) :
    ∃ t, tokens = t :: rest ∧ c.ValueWritten value t := by
  cases tokens with
  | nil => cases h
  | cons t tokens =>
    simp only [parseChoice] at h
    split at h
    · rename_i name hn
      split at h
      · rename_i hv
        cases h
        refine ⟨t, rfl, ?_⟩
        unfold chosenName? at hn
        split at hn
        · rename_i ht
          cases hn
          exact .name ht hv
        · rename_i k ht
          cases hn
          obtain ⟨rfl, rfl⟩ := (Choice.keyword_mem_values_iff k c).1 hv
          exact .chart ht
        · cases hn
      · split at h <;> cases h
    · cases h

theorem written_of_parseBody {t : Token} {k : Keyword} (ht : t.content = .keyword k)
    {tokens rest : List Token} {b : Body} (h : parseBody fields stop k tokens = .ok (b, rest)) :
    ∃ ts, tokens = ts ++ rest ∧ Clause.Written (· ∈ fields) ⟨b, t.position⟩ (t :: ts) := by
  unfold parseBody at h
  split at h
  · obtain ⟨⟨cs, r⟩, hc, h⟩ := ok_of_bind_ok h
    dsimp only at h
    split at h
    · cases h
      obtain ⟨ts, rfl, hs⟩ := separated_of_parseConditions hc
      exact ⟨ts, rfl, .conditions ht hs⟩
    · cases h
  · obtain ⟨⟨cs, r⟩, hc, h⟩ := ok_of_bind_ok h
    dsimp only at h
    split at h
    · cases h
      obtain ⟨ts, rfl, hs⟩ := separated_of_parseColumns hc
      exact ⟨ts, rfl, .columns ht hs⟩
    · cases h
  · obtain ⟨⟨v, r⟩, hv, h⟩ := ok_of_bind_ok h
    cases h
    obtain ⟨u, rfl, hu⟩ := written_of_parseChoice hv
    exact ⟨[u], rfl, .choice ht hu⟩
  all_goals cases h

theorem allWritten_of_parseClauses {tokens : List Token} {clauses : List Clause}
    (h : parseClauses fields stop tokens = .ok clauses) :
    Clause.AllWritten (· ∈ fields) clauses tokens := by
  fun_induction parseClauses fields stop tokens generalizing clauses with
  | case1 => cases h; exact .nil
  | case2 => cases h
  | case3 t rest k ht hk body rest' hb ih =>
    obtain ⟨cs, hcs, h⟩ := ok_of_bind_ok h
    cases h
    obtain ⟨ts, rfl, hw⟩ := written_of_parseBody ht hb
    exact .cons hw (ih hcs)
  | case4 => cases h
  | case5 => cases h

end Clause

end Worklog
