import Worklog.Proofs.Field.Canonical
import Worklog.Proofs.Query.Interpretation
import Worklog.Proofs.Token.Position

/-!
# What a predicate stands for

The predicates of a compiled query stand for the conditions of its text, one for each and in the
order in which those are written, whatever the registry is (`Query.compile_represents`). The handler
that read a condition is found again under the predicate's field, and the values of the predicate
are such as the handler would accept unchanged (`Predicate.Represents`).
-/

namespace Worklog

/-! ## Values -/

theorem Rule.Takes.ofKind {r : Rule} {v : Value} (h : r.Takes v) : v.OfKind r.kind := by
  cases r with
  | year =>
    obtain ⟨n, -, rfl⟩ := h
    trivial
  | month =>
    obtain ⟨n, -, rfl⟩ := h
    trivial
  | project =>
    obtain ⟨s, -, rfl⟩ := h
    exact ⟨s, rfl⟩
  | _ => exact h

/-- A value in the form in which a rule keeps it. -/
structure Value.Canonical (r : Rule) (v : Value) : Prop where
  ofKind : v.OfKind r.kind
  takes : r.Takes v
  accepted : r.accept v = .ok v

theorem isOrdered_of_readNumber {raw : String} {v : Value} (h : readNumber raw = .ok v) :
    v.IsOrdered := by
  unfold readNumber at h
  split at h
  · unfold readReal at h
    split at h
    · rename_i x hx
      cases h
      exact Decimal.isNaN_of_real? hx
    · cases h
  · unfold readInteger at h
    split at h
    · cases h; trivial
    · cases h
    · cases h

namespace Literal

variable {h : FieldHandler} {l : Literal} {v : Value}

theorem isOrdered_of_read (hr : l.read h = .ok v) : v.IsOrdered := by
  unfold read at hr
  split at hr
  · split at hr
    · exact isOrdered_of_readNumber hr
    · cases hr
  · split at hr
    · split at hr
      · cases hr; trivial
      · cases hr
    · cases hr
  · cases hr; trivial

/-- What a handler makes of a literal is not changed by making it so again. -/
theorem canonical_of_accepted (hr : l.accepted h = .ok v) :
    v.Canonical h.rule ∧ v.IsOrdered := by
  have takes := takes_of_accepted hr
  obtain ⟨w, hw, hr⟩ := exists_of_bind_ok hr
  split at hr
  · rename_i ha
    cases hr
    obtain ⟨again, rfl | ⟨n, rfl⟩⟩ := Rule.accept_of_accept (ofKind_of_read hw) ha
    · exact ⟨⟨takes.ofKind, takes, again⟩, isOrdered_of_read hw⟩
    · exact ⟨⟨takes.ofKind, takes, again⟩, trivial⟩
  · cases hr

end Literal

/-! ## Predicates -/

/-- A predicate that stands for a condition, as a handler of the registry has read it. -/
structure Predicate.Represents (registry : Registry) (c : Condition) (p : Predicate)
    (h : FieldHandler) : Prop where
  checked_by : registry.get? c.field = some h ∧ c.readTest h = .ok p.test
  found : registry.get? p.field = some h
  accepts : h.accepts p.test.operator = true
  upper_iff : p.test.upper?.isSome = true ↔ p.test.operator = .between
  in_order : ∀ upper ∈ p.test.upper?, p.test.value.atMost? upper = some true
  canonical : ∀ v ∈ p.test.value :: p.test.upper?.toList, v.Canonical h.rule

theorem Condition.represents_of_read {registry : Registry} {c : Condition} {p : Predicate}
    (hr : c.read registry = .ok p) (ne : ∀ op l, c.test = .compare op l → op ≠ .between) :
    ∃ h, p.Represents registry c h := by
  obtain ⟨h, hg, name, ht⟩ := exists_of_read hr
  have found : registry.get? p.field = some h := by
    rw [name]
    exact Registry.get?_name (Registry.mem_of_get? hg)
  obtain ⟨field, test⟩ := p
  obtain ⟨ha, ⟨op, l, v, hc, rfl, hv⟩ | ⟨low, high, lowest, highest, -, rfl, hl, hh, hn⟩⟩ :=
    cases_of_readTest ht
  · refine ⟨h, ⟨hg, ht⟩, found, ha, ?_, nofun, ?_⟩
    · exact ⟨nofun, fun between => absurd between (ne op l hc)⟩
    · simpa [Test.value, Test.upper?] using (Literal.canonical_of_accepted hv).1
  · obtain ⟨cl, ol⟩ := Literal.canonical_of_accepted hl
    obtain ⟨ch, oh⟩ := Literal.canonical_of_accepted hh
    refine ⟨h, ⟨hg, ht⟩, found, ha, ⟨fun _ => rfl, fun _ => rfl⟩, ?_, ?_⟩
    · intro upper hu
      cases hu
      exact Value.atMost?_of_less? cl.ofKind ch.ofKind ol oh hn
    · simpa [Test.value, Test.upper?] using ⟨cl, ch⟩

/-! ## The order of the conditions -/

/-- Conditions that stand among tokens in the same order, each where its field does. -/
def Condition.StandIn (cs : List Condition) (ts : List Token) : Prop :=
  ∃ fields : List Token, fields.Sublist ts ∧
    List.Forall₂ (fun t c => t.content = .identifier c.field ∧ t.position = c.position) fields cs

namespace Condition

theorem StandIn.append {cs ds : List Condition} {ts us : List Token} (hc : StandIn cs ts)
    (hd : StandIn ds us) : StandIn (cs ++ ds) (ts ++ us) := by
  obtain ⟨fields, sub, hf⟩ := hc
  obtain ⟨fields', sub', hf'⟩ := hd
  exact ⟨fields ++ fields', sub.append sub', List.rel_append hf hf'⟩

theorem StandIn.mono {cs : List Condition} {ts us : List Token} (h : StandIn cs ts)
    (sub : ts.Sublist us) : StandIn cs us := by
  obtain ⟨fields, hs, hf⟩ := h
  exact ⟨fields, hs.trans sub, hf⟩

theorem StandIn.pairwise_before {cs : List Condition} {text : String}
    (h : StandIn cs (Token.tokenize false text)) :
    cs.Pairwise fun c d => c.position.Before d.position := by
  obtain ⟨fields, sub, related⟩ := h
  have positions : fields.map Token.position = cs.map Condition.position := by
    rw [← List.forall₂_eq_eq_eq]
    exact List.rel_map (fun _ _ h => h.2) related
  have order := List.pairwise_map.2 ((Token.pairwise_before_tokenize false text).sublist sub)
  rw [positions] at order
  exact List.pairwise_map.1 order

variable {known : String → Prop}

theorem Written.standIn {c : Condition} {ts : List Token} (h : c.Written known ts) :
    StandIn [c] ts := by
  cases h with
  | @mk t name test ts content field tests =>
    exact ⟨[t], List.singleton_sublist.2 (List.mem_cons_self ..), .cons ⟨content, rfl⟩ .nil⟩

theorem standIn_of_separated {cs : List Condition} {mark : Token.Content} {ts : List Token}
    (h : Token.Separated (Condition.Written known) mark cs ts) : StandIn cs ts := by
  induction h with
  | single head => exact head.standIn
  | @cons c cs t ts us head between tail ih =>
    exact head.standIn.append (ih.mono (List.sublist_cons_self t us))

end Condition

theorem Clause.Written.standIn {known : String → Prop} {c : Clause} {ts : List Token}
    (h : c.Written known ts) : Condition.StandIn c.conditions ts := by
  cases h with
  | @conditions t cs ts word items =>
    exact (Condition.standIn_of_separated items).mono (List.sublist_cons_self t ts)
  | columns word items => exact ⟨[], List.nil_sublist _, .nil⟩
  | choice word content => exact ⟨[], List.nil_sublist _, .nil⟩

theorem Clause.AllWritten.standIn {known : String → Prop} {clauses : List Clause}
    {ts : List Token} (h : Clause.AllWritten known clauses ts) :
    Condition.StandIn (clauses.flatMap Clause.conditions) ts := by
  induction h with
  | nil => exact ⟨[], List.nil_sublist _, .nil⟩
  | cons head tail ih => exact head.standIn.append ih

namespace Query

variable {registry : Registry} {text : String} {clauses : List Clause}

theorem standIn_of_parse (h : parse registry text = .ok clauses) :
    Condition.StandIn (clauses.flatMap Clause.conditions) (Token.tokenize false text) := by
  obtain ⟨body, stop, cut, -, written⟩ := exists_of_parse h
  rw [cut]
  exact written.standIn.mono (List.sublist_append_left body [stop])

/-- The predicates of a query stand for its conditions, in the order of the text. -/
theorem compile_represents {q : Query} (h : compile registry text = .ok q) :
    ∃ clauses, parse registry text = .ok clauses ∧
      Condition.StandIn (clauses.flatMap Clause.conditions) (Token.tokenize false text) ∧
      (clauses.flatMap Clause.conditions).Pairwise (fun c d => c.position.Before d.position) ∧
      List.Forall₂ (fun c p => ∃ handler, p.Represents registry c handler)
        (clauses.flatMap Clause.conditions) q.predicates := by
  obtain ⟨clauses, hparse, h⟩ := exists_of_bind_ok h
  have stand := standIn_of_parse hparse
  refine ⟨clauses, hparse, stand, stand.pairwise_before, ?_⟩
  have read := (List.forall₂_and_left _ _).2
    ⟨ne_between_of_parse hparse, predicates_of_ofClauses h⟩
  exact read.imp fun c p hc => Condition.represents_of_read hc.2 hc.1

/-- A range of years under another name, one of them written as a decimal, and a month. -/
theorem compile_represents_renamed :
    let registry := (Registry.standard.edit
      (.register .year { name := some "Jahr", rangeCapable := some true } false)).1
    let text := "WHERE JAHR BETWEEN 2023.0 AND 2024 VIEW summary WHERE month = 2.0"
    let q : Query :=
      { conditions := some
          [⟨"Jahr", .range (.int 2023) (.int 2024)⟩, ⟨"month", .compare .eq (.int 2)⟩]
        view := some .summary }
    compile registry text = .ok q ∧
    ∃ clauses, parse registry text = .ok clauses ∧
      Condition.StandIn (clauses.flatMap Clause.conditions) (Token.tokenize false text) ∧
      (clauses.flatMap Clause.conditions).Pairwise (fun c d => c.position.Before d.position) ∧
      List.Forall₂ (fun c p => ∃ handler, p.Represents registry c handler)
        (clauses.flatMap Clause.conditions) q.predicates := by
  intro registry text q
  have compiles : compile registry text = .ok q := ok_of_toOption (by decide +kernel)
  exact ⟨compiles, compile_represents compiles⟩

end Query

end Worklog
