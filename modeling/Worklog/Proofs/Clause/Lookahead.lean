import Worklog.Proofs.Clause.Completeness
import Worklog.Proofs.Clause.Soundness

/-!
# How far readers look

A reader that has read a part has looked at the tokens of the part and at most at the one behind
them: with other tokens behind that one it reads the same (`ReadsAs`). For each reader there is
one lemma, which also gives the tokens that were read and says that they write the part.
-/

namespace Worklog

namespace Clause

variable {α : Type} {fields : List String} {stop : Position}

/-- What reads tokens, given where the text ends. -/
abbrev Reader (α : Type) := Position → List Token → Except QueryError α

/-- The tokens `ts` are read as `a` before all that begins as `rest` does. -/
def ReadsAs (read : Reader (α × List Token)) (a : α) (ts rest : List Token) : Prop :=
  ∀ stop rest', rest'.head? = rest.head? → read stop (ts ++ rest') = .ok (a, rest')

theorem eq_cons_of_head? {t : Token} {rest rest' : List Token}
    (h : rest'.head? = (t :: rest).head?) : ∃ tail, rest' = t :: tail :=
  List.head?_eq_some_iff.1 h

theorem eq_nil_of_head? {rest' : List Token} (h : rest'.head? = ([] : List Token).head?) :
    rest' = [] :=
  List.head?_eq_none_iff.1 h

theorem head?_append_congr (ts : List Token) {rest rest' : List Token}
    (h : rest'.head? = rest.head?) : (ts ++ rest').head? = (ts ++ rest).head? := by
  rw [List.head?_append, List.head?_append, h]

theorem readsAs_parseLiteral {after : String} {tokens rest : List Token} {l : Literal}
    (h : parseLiteral stop after tokens = .ok (l, rest)) :
    ∃ ts, tokens = ts ++ rest ∧ l.Written ts ∧
      ReadsAs (fun stop => parseLiteral stop after) l ts rest := by
  obtain ⟨ts, rfl, hw⟩ := written_of_parseLiteral h
  exact ⟨ts, rfl, hw, fun _ rest' _ => parseLiteral_of_written hw rest'⟩

theorem readsAs_parseCondition {after : Keyword} {tokens rest : List Token} {c : Condition}
    (h : parseCondition fields stop after tokens = .ok (c, rest)) :
    ∃ ts, tokens = ts ++ rest ∧ c.Written (· ∈ fields) ts ∧
      ReadsAs (fun stop => parseCondition fields stop after) c ts rest := by
  obtain ⟨ts, rfl, hw⟩ := written_of_parseCondition h
  exact ⟨ts, rfl, hw, fun _ rest' _ => parseCondition_of_written hw rest'⟩

/-- A word that is not ahead of some tokens is not ahead of others that begin in the same way. -/
theorem NotAhead.congr {k : Keyword} {rest rest' : List Token} (h : NotAhead k rest)
    (hh : rest'.head? = rest.head?) : NotAhead k rest' := by
  intro t ht
  rw [hh] at ht
  exact h t ht

/-- No format is announced where none is read. -/
theorem notAhead_of_parseFormat {rest : List Token}
    (h : parseFormat stop rest = .ok (none, rest)) : NotAhead .format rest := by
  intro t ht hc
  obtain ⟨tail, rfl⟩ := List.head?_eq_some_iff.1 ht
  simp only [parseFormat, hc, if_true] at h
  repeat' split at h
  all_goals cases h

/-- No title is announced where none is read. -/
theorem notAhead_of_parseTitle {rest : List Token}
    (h : parseTitle stop rest = .ok (none, rest)) : NotAhead .title rest := by
  intro t ht hc
  obtain ⟨tail, rfl⟩ := List.head?_eq_some_iff.1 ht
  simp only [parseTitle, hc, if_true] at h
  repeat' split at h
  all_goals cases h

theorem readsAs_parseFormat {tokens rest : List Token} {format : Option String}
    (h : parseFormat stop tokens = .ok (format, rest)) :
    ∃ ts, tokens = ts ++ rest ∧ ColumnItem.FormatWritten format ts ∧
      ReadsAs parseFormat format ts rest := by
  obtain ⟨ts, rfl, hw⟩ := written_of_parseFormat h
  refine ⟨ts, rfl, hw, fun stop' rest' hr => ?_⟩
  cases hw with
  | none => exact parseFormat_of_written .none ((notAhead_of_parseFormat h).congr hr)
  | some word content format => simp [parseFormat, word, content, format]

theorem readsAs_parseTitle {tokens rest : List Token} {title : Option String}
    (h : parseTitle stop tokens = .ok (title, rest)) :
    ∃ ts, tokens = ts ++ rest ∧ ColumnItem.TitleWritten title ts ∧
      ReadsAs parseTitle title ts rest := by
  obtain ⟨ts, rfl, hw⟩ := written_of_parseTitle h
  refine ⟨ts, rfl, hw, fun stop' rest' hr => ?_⟩
  cases hw with
  | none => exact parseTitle_of_written .none ((notAhead_of_parseTitle h).congr hr)
  | some word content => simp [parseTitle, word, content]

theorem readsAs_parseColumn {tokens rest : List Token} {c : ColumnItem}
    (h : parseColumn stop tokens = .ok (c, rest)) :
    ∃ ts, tokens = ts ++ rest ∧ c.Written ts ∧ ReadsAs parseColumn c ts rest := by
  cases tokens with
  | nil => cases h
  | cons t tokens =>
    simp only [parseColumn] at h
    split at h
    · rename_i name ht
      obtain ⟨⟨format, r⟩, hf, h⟩ := ok_of_bind_ok h
      obtain ⟨⟨title, r'⟩, ha, h⟩ := ok_of_bind_ok h
      cases h
      obtain ⟨fs, rfl, hfw, hfr⟩ := readsAs_parseFormat hf
      obtain ⟨ts, rfl, htw, htr⟩ := readsAs_parseTitle ha
      refine ⟨t :: (fs ++ ts), by simp, .field ht hfw htw, fun stop' rest' hr => ?_⟩
      simp only [List.cons_append, List.append_assoc, parseColumn, ht,
        hfr stop' (ts ++ rest') (head?_append_congr ts hr)]
      simp only [bind, Except.bind, htr stop' rest' hr]
    · rename_i ht
      obtain ⟨⟨title, r⟩, ha, h⟩ := ok_of_bind_ok h
      cases h
      obtain ⟨ts, hts, htw, htr⟩ := readsAs_parseTitle ha
      cases htw with
      | none =>
        -- The word that announces a title stands ahead, so one was read.
        rw [List.nil_append] at hts
        subst hts
        exact absurd ht (notAhead_of_parseTitle ha t rfl)
      | some word content =>
        rw [List.cons_append] at hts
        obtain ⟨rfl, rfl⟩ := List.cons.inj hts
        refine ⟨_, rfl, .title word content, fun stop' rest' hr => ?_⟩
        have read := htr stop' rest' hr
        simp only [List.cons_append, List.nil_append] at read ⊢
        simp only [parseColumn, ht, read]
        rfl
    · cases h

theorem readsAs_parseConditions {after : Keyword} {tokens rest : List Token}
    {cs : List Condition} (h : parseConditions fields stop after tokens = .ok (cs, rest)) :
    ∃ ts, tokens = ts ++ rest ∧
      Token.Separated (Condition.Written (· ∈ fields)) (.keyword .and) cs ts ∧
      ReadsAs (fun stop => parseConditions fields stop after) cs ts rest := by
  fun_induction parseConditions fields stop after tokens generalizing cs with
  | case1 => cases h
  | case2 after tokens c hc =>
    cases h
    obtain ⟨ts, rfl, hw, hr⟩ := readsAs_parseCondition hc
    refine ⟨ts, rfl, .single hw, fun stop' rest' hh => ?_⟩
    refine parseConditions_last (hr stop' rest' hh) ?_
    rw [eq_nil_of_head? hh]
    intro t ht
    cases ht
  | case3 after tokens c t r hc ht ih =>
    obtain ⟨⟨cs', r'⟩, hcs, h⟩ := ok_of_bind_ok h
    cases h
    obtain ⟨ts, rfl, hw, hr⟩ := readsAs_parseCondition hc
    obtain ⟨us, rfl, hs, hrs⟩ := ih hcs
    refine ⟨ts ++ t :: us, by simp, .cons hw ht hs, fun stop' rest' hh => ?_⟩
    rw [List.append_assoc]
    exact parseConditions_more (hr stop' (t :: us ++ rest') rfl) ht (hrs stop' rest' hh)
  | case4 after tokens c t r hc ht =>
    cases h
    obtain ⟨ts, rfl, hw, hr⟩ := readsAs_parseCondition hc
    refine ⟨ts, rfl, .single hw, fun stop' rest' hh => ?_⟩
    obtain ⟨tail, rfl⟩ := eq_cons_of_head? hh
    refine parseConditions_last (hr stop' _ hh) ?_
    intro u hu
    cases hu
    exact ht

theorem readsAs_parseColumns {tokens rest : List Token} {cs : List ColumnItem}
    (h : parseColumns stop tokens = .ok (cs, rest)) :
    ∃ ts, tokens = ts ++ rest ∧ Token.Separated ColumnItem.Written .comma cs ts ∧
      ReadsAs parseColumns cs ts rest := by
  fun_induction parseColumns stop tokens generalizing cs with
  | case1 => cases h
  | case2 tokens c hc =>
    cases h
    obtain ⟨ts, rfl, hw, hr⟩ := readsAs_parseColumn hc
    refine ⟨ts, rfl, .single hw, fun stop' rest' hh => ?_⟩
    refine parseColumns_last (hr stop' rest' hh) ?_
    rw [eq_nil_of_head? hh]
    intro t ht
    cases ht
  | case3 tokens c t r hc ht ih =>
    obtain ⟨⟨cs', r'⟩, hcs, h⟩ := ok_of_bind_ok h
    cases h
    obtain ⟨ts, rfl, hw, hr⟩ := readsAs_parseColumn hc
    obtain ⟨us, rfl, hs, hrs⟩ := ih hcs
    refine ⟨ts ++ t :: us, by simp, .cons hw ht hs, fun stop' rest' hh => ?_⟩
    rw [List.append_assoc]
    exact parseColumns_more (hr stop' (t :: us ++ rest') rfl) ht (hrs stop' rest' hh)
  | case4 tokens c t r hc ht =>
    cases h
    obtain ⟨ts, rfl, hw, hr⟩ := readsAs_parseColumn hc
    refine ⟨ts, rfl, .single hw, fun stop' rest' hh => ?_⟩
    obtain ⟨tail, rfl⟩ := eq_cons_of_head? hh
    refine parseColumns_last (hr stop' _ hh) ?_
    intro u hu
    cases hu
    exact ht

theorem readsAs_parseChoice {c : Choice} {tokens rest : List Token} {value : String}
    (h : parseChoice stop c tokens = .ok (value, rest)) :
    ∃ t, tokens = t :: rest ∧ c.ValueWritten value t ∧
      ReadsAs (fun stop => parseChoice stop c) value [t] rest := by
  obtain ⟨t, rfl, hw⟩ := written_of_parseChoice h
  exact ⟨t, rfl, hw, fun _ rest' _ => parseChoice_of_written hw rest'⟩

/-- Whether a clause may end somewhere is settled by the next token. -/
theorem atBoundary_congr {rest rest' : List Token} (h : rest'.head? = rest.head?) :
    atBoundary rest' = atBoundary rest := by
  cases rest with
  | nil => rw [eq_nil_of_head? h]
  | cons t rest =>
    obtain ⟨tail, rfl⟩ := eq_cons_of_head? h
    rfl

theorem readsAs_parseBody {t : Token} {k : Keyword} (ht : t.content = .keyword k)
    {tokens rest : List Token} {b : Body} (h : parseBody fields stop k tokens = .ok (b, rest)) :
    ∃ ts, tokens = ts ++ rest ∧ Clause.Written (· ∈ fields) ⟨b, t.position⟩ (t :: ts) ∧
      ReadsAs (fun stop => parseBody fields stop k) b ts rest := by
  unfold parseBody at h
  split at h
  · obtain ⟨⟨cs, r⟩, hc, h⟩ := ok_of_bind_ok h
    dsimp only at h
    split at h
    · rename_i hb
      cases h
      obtain ⟨ts, rfl, hs, hr⟩ := readsAs_parseConditions hc
      refine ⟨ts, rfl, .conditions ht hs, fun stop' rest' hh => ?_⟩
      have read := hr stop' rest' hh
      simp only at read
      simp only [parseBody, read, bind, Except.bind, atBoundary_congr hh, hb, if_true]
    · cases h
  · obtain ⟨⟨cs, r⟩, hc, h⟩ := ok_of_bind_ok h
    dsimp only at h
    split at h
    · rename_i hb
      cases h
      obtain ⟨ts, rfl, hs, hr⟩ := readsAs_parseColumns hc
      refine ⟨ts, rfl, .columns ht hs, fun stop' rest' hh => ?_⟩
      simp only [parseBody, hr stop' rest' hh, bind, Except.bind, atBoundary_congr hh, hb, if_true]
    · cases h
  · obtain ⟨⟨v, r⟩, hv, h⟩ := ok_of_bind_ok h
    cases h
    obtain ⟨u, rfl, hu, hr⟩ := readsAs_parseChoice hv
    refine ⟨[u], rfl, .choice ht hu, fun stop' rest' hh => ?_⟩
    have read := hr stop' rest' hh
    simp only at read
    simp only [parseBody, read]
    rfl
  all_goals cases h

end Clause

end Worklog
