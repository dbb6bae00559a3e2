import Worklog.Proofs.Chain.SideBySide
import Worklog.Proofs.Clause.Parsing
import Worklog.Proofs.Field.Rule
import Worklog.Query.Interpretation

/-!
# Predicates of compiled queries

Every predicate of a compiled query was read by a handler of the registry: it is found again under
the predicate's field, it accepts the operator, and the test suits its rule (`Predicate.ReadBy`).
Since no token of a text is an operator with the name of ranges, only ranges ask for one
(`readBy_of_compile`).
-/

namespace Worklog

/-- A predicate as a handler of the registry reads it. -/
structure Predicate.ReadBy (registry : Registry) (p : Predicate) (h : FieldHandler) : Prop where
  field_eq : p.field = h.name
  found : registry.get? p.field = some h
  accepts : h.accepts p.test.operator = true
  suits : p.test.Suits h.rule

/-! ## Reading one condition -/

theorem ofKind_of_readNumber {raw : String} {v : Value} (h : readNumber raw = .ok v) :
    v.IsNumber := by
  unfold readNumber at h
  split at h
  · unfold readReal at h
    split at h
    · cases h; trivial
    · cases h
  · unfold readInteger at h
    split at h
    · cases h; trivial
    · cases h
    · cases h

theorem Literal.ofKind_of_read {h : FieldHandler} {l : Literal} {v : Value}
    (hr : l.read h = .ok v) : v.OfKind h.rule.kind := by
  unfold read at hr
  split at hr
  · rename_i hk
    rw [hk]
    split at hr
    · exact ofKind_of_readNumber hr
    · cases hr
  · rename_i hk
    rw [hk]
    split at hr
    · split at hr
      · cases hr; exact ⟨_, rfl⟩
      · cases hr
    · cases hr
  · rename_i hk
    rw [hk]
    cases hr
    exact ⟨_, rfl⟩

theorem Literal.takes_of_accepted {h : FieldHandler} {l : Literal} {v : Value}
    (hr : l.accepted h = .ok v) : h.rule.Takes v := by
  obtain ⟨w, hw, hr⟩ := exists_of_bind_ok hr
  split at hr
  · rename_i ha
    cases hr
    exact Rule.takes_of_accept (ofKind_of_read hw) ha
  · cases hr

namespace Condition

variable {c : Condition} {h : FieldHandler} {t : Test Value}

/-- The values of a test are read in the order in which they stand, and a range is not reversed. -/
theorem cases_of_readTest (hr : c.readTest h = .ok t) : h.accepts t.operator = true ∧
    ((∃ op l v, c.test = .compare op l ∧ t = .compare op v ∧ l.accepted h = .ok v) ∨
      ∃ low high lowest highest, c.test = .range low high ∧ t = .range lowest highest ∧
        low.accepted h = .ok lowest ∧ high.accepted h = .ok highest ∧
          highest.less? lowest ≠ some true) := by
  unfold readTest at hr
  split at hr
  · rename_i op l hc
    split at hr
    · rename_i ha
      obtain ⟨v, hv, hr⟩ := exists_of_bind_ok hr
      cases hr
      exact ⟨ha, .inl ⟨op, l, v, hc, rfl, hv⟩⟩
    · cases hr
  · rename_i low high hc
    split at hr
    · rename_i ha
      obtain ⟨lowest, hl, hr⟩ := exists_of_bind_ok hr
      obtain ⟨highest, hh, hr⟩ := exists_of_bind_ok hr
      split at hr
      · cases hr
      · rename_i hn
        cases hr
        exact ⟨ha, .inr ⟨low, high, lowest, highest, hc, rfl, hl, hh, hn⟩⟩
    · cases hr

/-- The test that was read suits the rule and asks for a range only if one was written. -/
theorem suits_of_readTest (hr : c.readTest h = .ok t) :
    h.accepts t.operator = true ∧ t.Suits h.rule ∧
      ∀ op v, t = .compare op v → ∃ l, c.test = .compare op l := by
  obtain ⟨ha, ⟨op, l, v, hc, rfl, hv⟩ | ⟨low, high, lowest, highest, -, rfl, hl, hh, hn⟩⟩ :=
    cases_of_readTest hr
  · refine ⟨ha, Literal.takes_of_accepted hv, ?_⟩
    intro op' v' he
    cases he
    exact ⟨l, hc⟩
  · exact ⟨ha, ⟨Literal.takes_of_accepted hl, Literal.takes_of_accepted hh, hn⟩, nofun⟩

/-- A predicate is read by the handler that is found under the field of its condition. -/
theorem exists_of_read {registry : Registry} {p : Predicate} (hr : c.read registry = .ok p) :
    ∃ h, registry.get? c.field = some h ∧ p.field = h.name ∧ c.readTest h = .ok p.test := by
  unfold read at hr
  split at hr
  · cases hr
  · rename_i h hg
    obtain ⟨t, ht, hr⟩ := exists_of_bind_ok hr
    cases hr
    exact ⟨h, hg, rfl, ht⟩

theorem readBy_of_read {registry : Registry} {p : Predicate} (hr : c.read registry = .ok p) :
    (∃ h, p.ReadBy registry h) ∧ ∀ op v, p.test = .compare op v → ∃ l, c.test = .compare op l := by
  obtain ⟨h, hg, name, ht⟩ := exists_of_read hr
  obtain ⟨ha, hs, hc⟩ := suits_of_readTest ht
  have found : registry.get? p.field = some h := by
    rw [name]
    exact Registry.get?_name (Registry.mem_of_get? hg)
  exact ⟨⟨h, name, found, ha, hs⟩, hc⟩

end Condition

/-! ## Reading all clauses -/

/-- The conditions of a clause, of which only one kind of clause has any. -/
def Clause.conditions (c : Clause) : List Condition :=
  match c.body with
  | .conditions items => items
  | _ => []

namespace Query

theorem predicates_choose {q q' : Query} {c : Choice} {value : String}
    (h : q.choose c value = .ok q') : q'.predicates = q.predicates := by
  cases c with
  | _ =>
    obtain ⟨v, -, h⟩ := exists_of_bind_ok h
    cases h
    rfl

/-- A clause adds the predicates of its conditions, if it has any. -/
theorem predicates_addClause {registry : Registry} {q q' : Query} {clause : Clause}
    (h : q.addClause registry clause = .ok q') : ∃ ps, q'.predicates = q.predicates ++ ps ∧
      List.Forall₂ (fun c p => c.read registry = .ok p) clause.conditions ps := by
  obtain ⟨body, position⟩ := clause
  cases body with
  | conditions items =>
    obtain ⟨ps, hps, h⟩ := exists_of_bind_ok h
    cases h
    exact ⟨ps, rfl, mapM_eq_ok_iff.1 hps⟩
  | columns items =>
    obtain ⟨cs, -, h⟩ := exists_of_bind_ok h
    cases h
    exact ⟨[], (List.append_nil _).symm, .nil⟩
  | choice c value =>
    refine ⟨[], ?_, .nil⟩
    rw [predicates_choose h, List.append_nil]
  | unknown name => cases h

theorem eq_of_checkChart {q q' : Query} {clauses : List Clause}
    (h : q.checkChart clauses = .ok q') : q' = q := by
  unfold checkChart at h
  split at h
  · split at h
    · cases h; rfl
    · cases h
  · cases h; rfl

/-- The predicates of a query are those of all conditions, one after the other. -/
theorem predicates_of_ofClauses {registry : Registry} {clauses : List Clause} {q : Query}
    (h : ofClauses registry clauses = .ok q) :
    List.Forall₂ (fun c p => c.read registry = .ok p) (clauses.flatMap Clause.conditions)
      q.predicates := by
  obtain ⟨q', hq, h⟩ := exists_of_bind_ok h
  rw [eq_of_checkChart h]
  refine foldlM_ok (fun seen (q : Query) => List.Forall₂ (fun c p => c.read registry = .ok p)
    (seen.flatMap Clause.conditions) q.predicates) .nil ?_ hq
  intro seen q clause q' _ hs ha
  obtain ⟨ps, hps, read⟩ := predicates_addClause ha
  rw [hps, List.flatMap_append, List.flatMap_singleton]
  exact List.rel_append hs read

end Query

/-! ## The operators of a text -/

section Operators

variable {known : String → Prop}

theorem Token.Separated.exists_of_mem {α : Type} {written : α → List Token → Prop}
    {mark : Token.Content} {as : List α} {ts : List Token}
    (h : Token.Separated written mark as ts) : ∀ a ∈ as, ∃ us, us ⊆ ts ∧ written a us := by
  induction h with
  | @single a ts head =>
    intro b hb
    rw [List.mem_singleton.1 hb]
    exact ⟨ts, List.Subset.refl _, head⟩
  | @cons a as t ts us head between tail ih =>
    rw [List.forall_mem_cons]
    refine ⟨⟨ts, List.subset_append_left .., head⟩, fun b hb => ?_⟩
    obtain ⟨vs, hvs, hw⟩ := ih b hb
    refine ⟨vs, fun v hv => ?_, hw⟩
    exact List.mem_append_right _ (List.mem_cons_of_mem _ (hvs hv))

theorem Clause.AllWritten.exists_of_mem {clauses : List Clause} {ts : List Token}
    (h : Clause.AllWritten known clauses ts) :
    ∀ c ∈ clauses, ∃ us, us ⊆ ts ∧ c.Written known us := by
  induction h with
  | nil => exact nofun
  | @cons c cs ts us head tail ih =>
    rw [List.forall_mem_cons]
    refine ⟨⟨ts, List.subset_append_left .., head⟩, fun d hd => ?_⟩
    obtain ⟨vs, hvs, hw⟩ := ih d hd
    exact ⟨vs, fun v hv => List.mem_append_right _ (hvs hv), hw⟩

/-- The operator of a comparison is that of a token. -/
theorem exists_operator_of_in {clauses : List Clause} {ts : List Token}
    (h : Clause.AllWritten known clauses ts) {c : Condition}
    (hc : c ∈ clauses.flatMap Clause.conditions) {op : Operator}
    {l : Literal} (ht : c.test = .compare op l) : ∃ t ∈ ts, t.content = .operator op := by
  obtain ⟨clause, hmem, hci⟩ := List.mem_flatMap.1 hc
  obtain ⟨us, hus, hw⟩ := h.exists_of_mem clause hmem
  cases hw with
  | columns word items => cases hci
  | choice word content => cases hci
  | @conditions t cs vs word separated =>
    obtain ⟨ws, hws, hcw⟩ := separated.exists_of_mem c hci
    cases hcw with
    | mk content field tests =>
      cases ht
      cases tests with
      | @compare u op l ls operator value =>
        exact ⟨u, hus (List.mem_cons_of_mem _ (hws (by simp))), operator⟩

end Operators

/-- What parses was written by a query of the grammar. -/
theorem Query.exists_of_parse {registry : Registry} {text : String} {clauses : List Clause}
    (h : Query.parse registry text = .ok clauses) : ∃ body stop,
      Token.tokenize false text = body ++ [stop] ∧ Token.Canonical body stop ∧
        Clause.AllWritten (· ∈ registry.names) clauses body := by
  obtain ⟨body, stop, cut, canonical⟩ := Token.exists_canonical_tokenize text
  refine ⟨body, stop, cut, canonical, (Clause.parseTokens_eq_ok_iff canonical).1 ?_⟩
  unfold Query.parse at h
  rw [cut] at h
  split at h
  · rename_i clauses' hp
    cases h
    exact hp
  · cases h

/-- Only ranges ask for a range. -/
theorem Query.ne_between_of_parse {registry : Registry} {text : String} {clauses : List Clause}
    (h : Query.parse registry text = .ok clauses) : ∀ c ∈ clauses.flatMap Clause.conditions,
      ∀ op l, c.test = .compare op l → op ≠ .between := by
  intro c hc op l hl
  -- The parser tells nothing about operators that the grammar does not, so look at the tokens.
  obtain ⟨body, stop, cut, -, written⟩ := Query.exists_of_parse h
  obtain ⟨t, hmem, hcontent⟩ := exists_operator_of_in written hc hl
  have htoken : t ∈ Token.tokenize false text := by
    rw [cut]
    exact List.mem_append_left _ hmem
  exact Token.ne_between_of_mem_tokenize htoken hcontent

/-- A predicate of a compiled text was read by a handler, and only ranges ask for a range. -/
theorem readBy_of_compile {registry : Registry} {text : String} {q : Query}
    (h : Query.compile registry text = .ok q) : ∀ p ∈ q.predicates,
      (∃ handler, p.ReadBy registry handler) ∧ ∀ op v, p.test = .compare op v → op ≠ .between := by
  obtain ⟨clauses, hparse, h⟩ := exists_of_bind_ok h
  intro p hp
  obtain ⟨c, hc, hr⟩ := exists_of_forall₂ (Query.predicates_of_ofClauses h) p hp
  obtain ⟨hread, hop⟩ := Condition.readBy_of_read hr
  refine ⟨hread, fun op v ht => ?_⟩
  obtain ⟨l, hl⟩ := hop op v ht
  exact Query.ne_between_of_parse hparse c hc op l hl

end Worklog
