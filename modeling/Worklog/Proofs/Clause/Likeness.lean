import Worklog.Proofs.Chain.SideBySide
import Worklog.Proofs.Clause.FirstFault

/-!
# Two readings of a query

Tokens of two texts are alike if they have the same contents, while their positions and the texts
they were written as may differ: a `Likeness` says which positions correspond, and whether the texts
are the same too. What is read from tokens that are alike is alike: the same clauses at positions
that correspond, or errors of the same cause at such positions (`agree_parseClauses`). Every
position in what is read is therefore one of the tokens or of the end, and no meaning depends on
where a token stands or on how it was spelled.
-/

namespace Worklog

/-- In what two readings of a query are alike. -/
structure Likeness where
  /-- The positions correspond. -/
  places : Position → Position → Prop
  /-- The tokens are written as the same texts. -/
  verbatim : Prop

/-- The tokens have the same content. -/
structure Token.Like (k : Likeness) (t t' : Token) : Prop where
  content_eq : t'.content = t.content
  text_eq : k.verbatim → t'.text = t.text
  places : k.places t.position t'.position

/-! ## Errors -/

/-- The causes differ at most in the wording of their messages. -/
structure Cause.SameGist (c c' : Cause) : Prop where
  stage_eq : c'.stage = c.stage
  code_eq : c'.code = c.code
  suggestion_eq : c'.suggestion? = c.suggestion?

theorem Cause.SameGist.refl (c : Cause) : c.SameGist c :=
  ⟨rfl, rfl, rfl⟩

/-- The errors have the same cause, up to its wording, at positions that correspond. -/
inductive QueryError.Like (k : Likeness) : QueryError → QueryError → Prop
  | located {p p' : Position} {c c' : Cause} (places : k.places p p') (gist : c.SameGist c')
      (cause_eq : k.verbatim → c' = c) : Like k (.located p c) (.located p' c')

theorem QueryError.Like.same {k : Likeness} {p p' : Position} (h : k.places p p') (c : Cause) :
    Like k (.located p c) (.located p' c) :=
  .located h (.refl c) fun _ => rfl

/-! ## Clauses -/

section Clauses

variable (k : Likeness)

/-- The literals are the same at positions that correspond. -/
structure Literal.Like (l l' : Literal) : Prop where
  kind_eq : l'.kind = l.kind
  raw_eq : l'.raw = l.raw
  places : k.places l.position l'.position

/-- The tests ask the same of values that are related. -/
inductive Test.Rel {α : Type} (R : α → α → Prop) : Test α → Test α → Prop
  | compare {op : Operator} {a a' : α} (value : R a a') : Rel R (.compare op a) (.compare op a')
  | range {low low' high high' : α} (lower : R low low') (upper : R high high') :
      Rel R (.range low high) (.range low' high')

/-- The conditions are the same at positions that correspond. -/
structure Condition.Like (c c' : Condition) : Prop where
  field_eq : c'.field = c.field
  test : c.test.Rel (Literal.Like k) c'.test
  places : k.places c.position c'.position

/-- The columns are the same at positions that correspond. -/
structure ColumnItem.Like (c c' : ColumnItem) : Prop where
  field_eq : c'.field = c.field
  format_eq : c'.format = c.format
  title_eq : c'.title = c.title
  places : k.places c.position c'.position

/-- What is said is the same; it is something that the language has a clause for. -/
inductive Clause.Body.Like : Clause.Body → Clause.Body → Prop
  | conditions {items items' : List Condition} (h : List.Forall₂ (Condition.Like k) items items') :
      Like (.conditions items) (.conditions items')
  | columns {items items' : List ColumnItem} (h : List.Forall₂ (ColumnItem.Like k) items items') :
      Like (.columns items) (.columns items')
  | choice (c : Choice) (value : String) : Like (.choice c value) (.choice c value)

/-- The clauses are the same at positions that correspond. -/
structure Clause.Like (c c' : Clause) : Prop where
  body : c.body.Like k c'.body
  places : k.places c.position c'.position

end Clauses

/-! ## Readers -/

namespace Clause

variable {k : Likeness} {fields : List String} {stop stop' : Position} {ts ts' : List Token}
  {α β : Type}

/-- What is read is related, and what is left is alike; or the errors are alike. -/
abbrev ReadAlike (k : Likeness) (R : α → β → Prop) :=
  Agree (QueryError.Like k) fun (x : α × List Token) (y : β × List Token) =>
    R x.1 y.1 ∧ List.Forall₂ (Token.Like k) x.2 y.2

theorem beginsClause_eq {t t' : Token} (h : t.Like k t') : t'.beginsClause = t.beginsClause := by
  rw [Token.beginsClause, Token.beginsClause, h.content_eq]

theorem describe_eq {t t' : Token} (h : t.Like k t') (hv : k.verbatim) :
    t'.describe = t.describe := by
  rw [Token.describe, Token.describe, h.content_eq, h.text_eq hv]

theorem atBoundary_eq (h : List.Forall₂ (Token.Like k) ts ts') :
    atBoundary ts' = atBoundary ts := by
  cases h with
  | nil => rfl
  | cons head tail => exact beginsClause_eq head

/-- Tokens that are alike are refused alike, if the cause depends on them in its wording alone. -/
theorem like_refusal (h : List.Forall₂ (Token.Like k) ts ts') (hs : k.places stop stop')
    {cause cause' : String → Cause} (gist : ∀ a b, (cause a).SameGist (cause' b))
    (hv : k.verbatim → cause' = cause) :
    (refusal stop ts cause).Like k (refusal stop' ts' cause') := by
  cases h with
  | nil => exact .located hs (gist _ _) fun v => congrFun (hv v) _
  | cons head tail =>
    unfold refusal
    simp only [head.content_eq]
    split
    · exact .same head.places _
    · refine .located head.places (gist _ _) fun v => ?_
      rw [hv v, describe_eq head v]

/-- The wording apart, the causes are the same whatever they are told. -/
theorem like_refusal_same (h : List.Forall₂ (Token.Like k) ts ts') (hs : k.places stop stop')
    (cause : String → Cause) (gist : ∀ a b, (cause a).SameGist (cause b)) :
    (refusal stop ts cause).Like k (refusal stop' ts' cause) :=
  like_refusal h hs gist fun _ => rfl

theorem agree_parseLiteral (h : List.Forall₂ (Token.Like k) ts ts') (hs : k.places stop stop')
    (after : String) :
    ReadAlike k (Literal.Like k) (parseLiteral stop after ts) (parseLiteral stop' after ts') := by
  cases h with
  | nil => exact .error (like_refusal_same .nil hs _ fun _ _ => ⟨rfl, rfl, rfl⟩)
  | cons head tail =>
    unfold parseLiteral
    simp only [head.content_eq]
    split
    · exact .ok ⟨⟨rfl, rfl, head.places⟩, tail⟩
    · exact .ok ⟨⟨rfl, rfl, head.places⟩, tail⟩
    · exact .error (like_refusal_same (.cons head tail) hs _ fun _ _ => ⟨rfl, rfl, rfl⟩)

theorem agree_parseKeyword (h : List.Forall₂ (Token.Like k) ts ts') (hs : k.places stop stop')
    (word : Keyword) {cause : String → Cause} (gist : ∀ a b, (cause a).SameGist (cause b)) :
    Agree (QueryError.Like k) (List.Forall₂ (Token.Like k)) (parseKeyword stop word cause ts)
      (parseKeyword stop' word cause ts') := by
  cases h with
  | nil => exact .error (like_refusal_same .nil hs _ gist)
  | cons head tail =>
    unfold parseKeyword
    simp only [head.content_eq]
    split
    · exact .ok tail
    · exact .error (like_refusal_same (.cons head tail) hs _ gist)

theorem agree_parseTest (h : List.Forall₂ (Token.Like k) ts ts') (hs : k.places stop stop')
    {field field' : String} (hf : k.verbatim → field' = field) :
    ReadAlike k (Test.Rel (Literal.Like k)) (parseTest stop field ts)
      (parseTest stop' field' ts') := by
  have gist : ∀ a b, (Cause.operatorExpected field a).SameGist (.operatorExpected field' b) :=
    fun _ _ => ⟨rfl, rfl, rfl⟩
  have same : k.verbatim → Cause.operatorExpected field' = .operatorExpected field :=
    fun v => congrArg _ (hf v)
  cases h with
  | nil => exact .error (like_refusal .nil hs gist same)
  | cons head tail =>
    unfold parseTest
    simp only [head.content_eq]
    split
    · refine (agree_parseLiteral tail hs _).bind fun x x' hx => ?_
      exact .ok ⟨.compare hx.1, hx.2⟩
    · refine (agree_parseLiteral tail hs _).bind fun x x' hx => ?_
      refine (agree_parseKeyword hx.2 hs .and fun _ _ => ⟨rfl, rfl, rfl⟩).bind fun r r' hr => ?_
      refine (agree_parseLiteral hr hs _).bind fun y y' hy => ?_
      exact .ok ⟨.range hx.1 hy.1, hy.2⟩
    · exact .error (like_refusal (.cons head tail) hs gist same)

variable (fields) in
theorem agree_parseCondition (h : List.Forall₂ (Token.Like k) ts ts') (hs : k.places stop stop')
    (after : Keyword) : ReadAlike k (Condition.Like k) (parseCondition fields stop after ts)
      (parseCondition fields stop' after ts') := by
  cases h with
  | nil => exact .error (like_refusal_same .nil hs _ fun _ _ => ⟨rfl, rfl, rfl⟩)
  | cons head tail =>
    unfold parseCondition
    simp only [head.content_eq]
    split
    · split
      · refine (agree_parseTest tail hs head.text_eq).bind fun x x' hx => ?_
        exact .ok ⟨⟨rfl, hx.1, head.places⟩, hx.2⟩
      · exact .error (.located head.places ⟨rfl, rfl, rfl⟩ fun v => by rw [head.text_eq v])
    · exact .error (like_refusal_same (.cons head tail) hs _ fun _ _ => ⟨rfl, rfl, rfl⟩)

theorem agree_parseFormat (h : List.Forall₂ (Token.Like k) ts ts') (hs : k.places stop stop') :
    ReadAlike k Eq (parseFormat stop ts) (parseFormat stop' ts') := by
  cases h with
  | nil => exact .ok ⟨rfl, .nil⟩
  | cons head tail =>
    unfold parseFormat
    simp only [head.content_eq]
    split
    · cases tail with
      | nil => exact .error (like_refusal_same .nil hs _ fun _ _ => ⟨rfl, rfl, rfl⟩)
      | cons next tail =>
        have refused := like_refusal_same (.cons next tail) hs .unknownFormat
          fun _ _ => ⟨rfl, rfl, rfl⟩
        simp only [next.content_eq]
        split
        · split
          · exact .ok ⟨rfl, tail⟩
          · exact .error refused
        · exact .error refused
    · exact .ok ⟨rfl, .cons head tail⟩

theorem agree_parseTitle (h : List.Forall₂ (Token.Like k) ts ts') (hs : k.places stop stop') :
    ReadAlike k Eq (parseTitle stop ts) (parseTitle stop' ts') := by
  cases h with
  | nil => exact .ok ⟨rfl, .nil⟩
  | cons head tail =>
    unfold parseTitle
    simp only [head.content_eq]
    split
    · cases tail with
      | nil => exact .error (like_refusal_same .nil hs _ fun _ _ => ⟨rfl, rfl, rfl⟩)
      | cons next tail =>
        simp only [next.content_eq]
        split
        · exact .ok ⟨rfl, tail⟩
        · exact .error (like_refusal_same (.cons next tail) hs _ fun _ _ => ⟨rfl, rfl, rfl⟩)
    · exact .ok ⟨rfl, .cons head tail⟩

theorem agree_parseColumn (h : List.Forall₂ (Token.Like k) ts ts') (hs : k.places stop stop') :
    ReadAlike k (ColumnItem.Like k) (parseColumn stop ts) (parseColumn stop' ts') := by
  cases h with
  | nil => exact .error (like_refusal_same .nil hs _ fun _ _ => ⟨rfl, rfl, rfl⟩)
  | cons head tail =>
    unfold parseColumn
    simp only [head.content_eq]
    split
    · refine (agree_parseFormat tail hs).bind fun x x' hx => ?_
      refine (agree_parseTitle hx.2 hs).bind fun y y' hy => ?_
      exact .ok ⟨⟨rfl, hx.1.symm, hy.1.symm, head.places⟩, hy.2⟩
    · refine (agree_parseTitle (.cons head tail) hs).bind fun y y' hy => ?_
      exact .ok ⟨⟨rfl, rfl, hy.1.symm, head.places⟩, hy.2⟩
    · exact .error (like_refusal_same (.cons head tail) hs _ fun _ _ => ⟨rfl, rfl, rfl⟩)

theorem agree_parseConditions (h : List.Forall₂ (Token.Like k) ts ts')
    (hs : k.places stop stop') (after : Keyword) :
    ReadAlike k (List.Forall₂ (Condition.Like k)) (parseConditions fields stop after ts)
      (parseConditions fields stop' after ts') := by
  have first := agree_parseCondition fields h hs after
  fun_induction parseConditions fields stop after ts generalizing ts' with
  | case1 after ts e he =>
    rw [he] at first
    obtain ⟨e', he', like⟩ := first.exists_of_error
    rw [parseConditions_of_error he']
    exact .error like
  | case2 after ts c hc =>
    rw [hc] at first
    obtain ⟨⟨c', rest'⟩, hc', like, rest⟩ := first.exists_of_ok
    cases rest
    have last : NotAhead .and [] := by simp [NotAhead]
    rw [parseConditions_last hc' last]
    exact .ok ⟨.cons like .nil, .nil⟩
  | case3 after ts c t rest hc ht ih =>
    rw [hc] at first
    obtain ⟨⟨c', tail'⟩, hc', like, tail⟩ := first.exists_of_ok
    cases tail with
    | cons head tail =>
      rw [parseConditions_and hc' (head.content_eq.trans ht)]
      refine (ih tail (agree_parseCondition fields tail hs .and)).bind fun x x' hx => ?_
      exact .ok ⟨.cons like hx.1, hx.2⟩
  | case4 after ts c t rest hc ht =>
    rw [hc] at first
    obtain ⟨⟨c', tail'⟩, hc', like, tail⟩ := first.exists_of_ok
    cases tail with
    | @cons _ u _ us head tail =>
      have last : NotAhead .and (u :: us) := fun v hv => by
        cases hv
        rwa [head.content_eq]
      rw [parseConditions_last hc' last]
      exact .ok ⟨.cons like .nil, .cons head tail⟩

theorem agree_parseColumns (h : List.Forall₂ (Token.Like k) ts ts') (hs : k.places stop stop') :
    ReadAlike k (List.Forall₂ (ColumnItem.Like k)) (parseColumns stop ts)
      (parseColumns stop' ts') := by
  have first := agree_parseColumn h hs
  fun_induction parseColumns stop ts generalizing ts' with
  | case1 ts e he =>
    rw [he] at first
    obtain ⟨e', he', like⟩ := first.exists_of_error
    rw [parseColumns_of_error he']
    exact .error like
  | case2 ts c hc =>
    rw [hc] at first
    obtain ⟨⟨c', rest'⟩, hc', like, rest⟩ := first.exists_of_ok
    cases rest
    rw [parseColumns_last hc' (by simp)]
    exact .ok ⟨.cons like .nil, .nil⟩
  | case3 ts c t rest hc ht ih =>
    rw [hc] at first
    obtain ⟨⟨c', tail'⟩, hc', like, tail⟩ := first.exists_of_ok
    cases tail with
    | cons head tail =>
      rw [parseColumns_comma hc' (head.content_eq.trans ht)]
      refine (ih tail (agree_parseColumn tail hs)).bind fun x x' hx => ?_
      exact .ok ⟨.cons like hx.1, hx.2⟩
  | case4 ts c t rest hc ht =>
    rw [hc] at first
    obtain ⟨⟨c', tail'⟩, hc', like, tail⟩ := first.exists_of_ok
    cases tail with
    | @cons _ u _ us head tail =>
      have last : ∀ v ∈ (u :: us).head?, v.content ≠ .comma := fun v hv => by
        cases hv
        rwa [head.content_eq]
      rw [parseColumns_last hc' last]
      exact .ok ⟨.cons like .nil, .cons head tail⟩

theorem agree_parseChoice (h : List.Forall₂ (Token.Like k) ts ts') (hs : k.places stop stop')
    (c : Choice) : ReadAlike k Eq (parseChoice stop c ts) (parseChoice stop' c ts') := by
  cases h with
  | nil => exact .error (.same hs _)
  | @cons t t' _ _ head tail =>
    have chosen : chosenName? t' = chosenName? t := by
      rw [chosenName?, chosenName?, head.content_eq]
    have refused := like_refusal_same (.cons head tail) hs (.unknownChoice c)
      fun _ _ => ⟨rfl, rfl, rfl⟩
    unfold parseChoice
    simp only [chosen, beginsClause_eq head]
    split
    · split
      · exact .ok ⟨rfl, tail⟩
      · split
        · exact .error (.same head.places _)
        · exact .error refused
    · exact .error refused

theorem like_conditionsRefusal (h : List.Forall₂ (Token.Like k) ts ts')
    (hs : k.places stop stop') :
    (conditionsRefusal stop ts).Like k (conditionsRefusal stop' ts') := by
  have refused := like_refusal_same h hs .conditionsBroken fun _ _ => ⟨rfl, rfl, rfl⟩
  cases h with
  | nil => exact refused
  | cons head tail =>
    unfold conditionsRefusal
    simp only [head.content_eq]
    split
    · exact .same head.places _
    · exact refused

theorem like_clauseRefusal (h : List.Forall₂ (Token.Like k) ts ts') (hs : k.places stop stop') :
    (clauseRefusal stop ts).Like k (clauseRefusal stop' ts') := by
  have refused := like_refusal_same h hs .clauseExpected fun _ _ => ⟨rfl, rfl, rfl⟩
  have unknown := like_refusal_same h hs .unknownKeyword fun _ _ => ⟨rfl, rfl, rfl⟩
  cases h with
  | nil => exact refused
  | cons head tail =>
    unfold clauseRefusal
    simp only [head.content_eq]
    split
    · exact unknown
    · exact refused

variable (fields) in
theorem agree_parseBody (h : List.Forall₂ (Token.Like k) ts ts') (hs : k.places stop stop')
    (word : Keyword) : ReadAlike k (Body.Like k) (parseBody fields stop word ts)
      (parseBody fields stop' word ts') := by
  unfold parseBody
  split
  · refine (agree_parseConditions h hs _).bind fun x x' hx => ?_
    simp only [atBoundary_eq hx.2]
    split
    · exact .ok ⟨.conditions hx.1, hx.2⟩
    · exact .error (like_conditionsRefusal hx.2 hs)
  · refine (agree_parseColumns h hs).bind fun x x' hx => ?_
    simp only [atBoundary_eq hx.2]
    split
    · exact .ok ⟨.columns hx.1, hx.2⟩
    · exact .error (like_refusal_same hx.2 hs _ fun _ _ => ⟨rfl, rfl, rfl⟩)
  · refine (agree_parseChoice h hs _).bind fun x x' hx => ?_
    obtain ⟨value, rest⟩ := x
    obtain ⟨value', rest'⟩ := x'
    obtain ⟨rfl, rest⟩ := hx
    exact .ok ⟨.choice _ _, rest⟩
  all_goals exact .error (like_clauseRefusal h hs)

/-- Tokens that are alike are read as clauses that are alike, or refused with errors that are. -/
theorem agree_parseClauses (h : List.Forall₂ (Token.Like k) ts ts') (hs : k.places stop stop') :
    Agree (QueryError.Like k) (List.Forall₂ (Clause.Like k)) (parseClauses fields stop ts)
      (parseClauses fields stop' ts') := by
  fun_induction parseClauses fields stop ts generalizing ts' with
  | case1 =>
    cases h
    rw [parseClauses]
    exact .ok .nil
  | case2 t rest word ht hw e he =>
    cases h with
    | cons head tail =>
      have body := agree_parseBody fields tail hs word
      rw [he] at body
      obtain ⟨e', he', like⟩ := body.exists_of_error
      rw [parseClauses_keyword (head.content_eq.trans ht) hw, he']
      exact .error like
  | case3 t rest word ht hw b left hb ih =>
    cases h with
    | cons head tail =>
      have body := agree_parseBody fields tail hs word
      rw [hb] at body
      obtain ⟨⟨b', left'⟩, hb', like, rest'⟩ := body.exists_of_ok
      rw [parseClauses_keyword (head.content_eq.trans ht) hw, hb']
      refine (ih rest').bind fun cs cs' hcs => ?_
      exact .ok (.cons ⟨like, head.places⟩ hcs)
  | case4 t rest word ht hw =>
    have refused := like_clauseRefusal h hs
    cases h with
    | cons head tail =>
      rw [parseClauses_of_not_beginsClause]
      · exact .error refused
      · rw [beginsClause_eq head, Token.beginsClause, ht]
        simpa using hw
  | case5 t rest hw =>
    have refused := like_clauseRefusal h hs
    cases h with
    | cons head tail =>
      rw [parseClauses_of_not_beginsClause]
      · exact .error refused
      · rw [beginsClause_eq head, Token.beginsClause]
        split
        · rename_i word ht
          exact absurd ht (hw word)
        · rfl

end Clause

end Worklog
