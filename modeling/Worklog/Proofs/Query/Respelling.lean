import Worklog.Proofs.Clause.Frame
import Worklog.Proofs.Query.Merging
import Worklog.Proofs.Token.Layout

/-!
# Other spellings of a condition

A condition may be spelled in another way (`Token.Respelling`): a range of a threshold field as two
comparisons, a day as a range of one day, a year as a range of days. The text then has other tokens
in the place of the condition, and the same ones around it. They are read as the respelled
conditions in the frame of the old one (`Query.exists_respelled`), so the new query differs from the
old one in the predicates of the condition only (`Query.ofClauses_frame`).
-/

namespace Worklog

/-! ## Spellings -/

/-- The days are the first and the last one of a year. -/
structure Date.Spans (start stop : Date) (year : Nat) : Prop where
  start_year : start.year = year
  start_month : start.month = 1
  start_day : start.day = 1
  stop_year : stop.year = year
  stop_month : stop.month = 12
  stop_day : stop.day = 31

/-- The fields that are compared with a threshold. -/
def thresholdFields : List String :=
  ["utilization", "value", "hours"]

/-- What tokens say, and what others say that spell the same condition. -/
inductive Token.Respelling : List Token.Content → List Token.Content → Prop
  | range {field : String} {low high : Content} (threshold : field ∈ thresholdFields) :
      Respelling
        [.identifier field, .keyword .between, low, .keyword .and, high]
        [.identifier field, .operator .ge, low, .keyword .and,
          .identifier field, .operator .le, high]
  | equality {field : String} {value : Content} (threshold : field ∈ thresholdFields) :
      Respelling
        [.identifier field, .operator .eq, value]
        [.identifier field, .operator .ge, value]
  | day {value : Content} :
      Respelling
        [.identifier "date", .operator .eq, value]
        [.identifier "date", .keyword .between, value, .keyword .and, value]
  | year {digits first last : String} {v : Value} {year : Nat} {start stop : Date}
      (reads : readNumber digits = .ok v) (accepts : Rule.year.accept v = .ok (.int year))
      (low : Date.parse first = .ok start) (high : Date.parse last = .ok stop)
      (spans : start.Spans stop year) :
      Respelling
        [.identifier "year", .operator .eq, .number digits]
        [.identifier "date", .keyword .between, .quoted first, .keyword .and, .quoted last]

/-- A condition, and others that are spelled for it. -/
inductive Condition.Respelled : Condition → List Condition → Prop
  | range {field : String} {low high : Literal} {p q r : Position} {f g : Position → Position}
      (threshold : field ∈ thresholdFields) :
      Respelled ⟨field, .range low high, p⟩
        [⟨field, .compare .ge (low.moved f), q⟩, ⟨field, .compare .le (high.moved g), r⟩]
  | equality {field : String} {value : Literal} {p q : Position} {f : Position → Position}
      (threshold : field ∈ thresholdFields) :
      Respelled ⟨field, .compare .eq value, p⟩ [⟨field, .compare .ge (value.moved f), q⟩]
  | day {value : Literal} {p q : Position} {f g : Position → Position} :
      Respelled ⟨"date", .compare .eq value, p⟩
        [⟨"date", .range (value.moved f) (value.moved g), q⟩]
  | year {digits first last : String} {v : Value} {year : Nat} {start stop : Date}
      {p q r s t : Position}
      (reads : readNumber digits = .ok v) (accepts : Rule.year.accept v = .ok (.int year))
      (low : Date.parse first = .ok start) (high : Date.parse last = .ok stop)
      (spans : start.Spans stop year) :
      Respelled ⟨"year", .compare .eq ⟨.number, digits, p⟩, q⟩
        [⟨"date", .range ⟨.date, first, r⟩ ⟨.date, last, s⟩, t⟩]

/-! ## Reading the tokens -/

theorem Literal.Written.exists_token {l : Literal} {ts : List Token} (h : l.Written ts) :
    ∃ t, ts = [t] := by
  cases h with
  | number => exact ⟨_, rfl⟩
  | text => exact ⟨_, rfl⟩
  | date => exact ⟨_, rfl⟩

/-- A token with the content of another one writes the same literal at its own position. -/
theorem Literal.Written.elsewhere {l : Literal} {t t' : Token} (h : l.Written [t])
    (same : t'.content = t.content) : (l.moved fun _ => t'.position).Written [t'] := by
  cases h with
  | number content => exact .number (same.trans content)
  | text content shape => exact .text (same.trans content) shape
  | date content shape => exact .date (same.trans content) shape

theorem Date.looksLikeLine_of_parse {s : String} {d : Date} (h : Date.parse s = .ok d) :
    Date.looksLikeLine s.toList = true := by
  unfold Date.parse at h
  split at h
  · assumption
  · cases h

section Written

variable {known : String → Prop} {c : Condition} {ts : List Token} {name : String}

/-- Three tokens are a comparison. -/
theorem Condition.Written.exists_compare {op : Operator} {value : Token.Content}
    (h : c.Written known ts)
    (contents : ts.map Token.content = [.identifier name, .operator op, value]) :
    ∃ l t p, c = ⟨name, .compare op l, p⟩ ∧ known name ∧ t.content = value ∧ l.Written [t] := by
  cases h with
  | @mk s field test us content field_known tests =>
    rw [List.map_cons, List.cons.injEq, content, Token.Content.identifier.injEq] at contents
    obtain ⟨rfl, contents⟩ := contents
    cases tests with
    | @compare u op' l ls sign written =>
      obtain ⟨t, rfl⟩ := written.exists_token
      simp only [List.map_cons, List.map_nil, List.cons.injEq, sign, Token.Content.operator.injEq,
        and_true] at contents
      obtain ⟨rfl, rfl⟩ := contents
      exact ⟨l, t, s.position, rfl, field_known, rfl, written⟩
    | @range u m low high ls hs first lower middle upper =>
      rw [List.map_cons, first] at contents
      cases contents

/-- Five tokens are a range. -/
theorem Condition.Written.exists_range {low high : Token.Content} (h : c.Written known ts)
    (contents : ts.map Token.content =
      [.identifier name, .keyword .between, low, .keyword .and, high]) :
    ∃ l t m u p, c = ⟨name, .range l m, p⟩ ∧ known name ∧ t.content = low ∧ l.Written [t] ∧
      u.content = high ∧ m.Written [u] := by
  cases h with
  | @mk s field test us content field_known tests =>
    rw [List.map_cons, List.cons.injEq, content, Token.Content.identifier.injEq] at contents
    obtain ⟨rfl, contents⟩ := contents
    cases tests with
    | @compare u op' l ls sign written =>
      rw [List.map_cons, sign] at contents
      cases contents
    | @range v m low' high' ls hs first lower middle upper =>
      obtain ⟨t, rfl⟩ := lower.exists_token
      obtain ⟨u, rfl⟩ := upper.exists_token
      simp only [List.map_cons, List.map_nil, List.cons_append, List.nil_append, List.cons.injEq,
        and_true] at contents
      obtain ⟨-, rfl, -, rfl⟩ := contents
      exact ⟨low', t, high', u, s.position, rfl, field_known, rfl, lower, rfl, upper⟩

end Written

/-- Tokens that spell a condition otherwise write the conditions that are spelled for it. -/
theorem Token.Respelling.exists_respelled {known : String → Prop} {old new : List Content}
    (h : Respelling old new) (date : known "date") {c : Condition} {ts us : List Token}
    (written : c.Written known ts) (hts : ts.map content = old) (hus : us.map content = new) :
    ∃ cs, Separated (Condition.Written known) (.keyword .and) cs us ∧ c.Respelled cs := by
  cases h with
  | range threshold =>
    obtain ⟨l, t, m, u, p, rfl, field, ht, low, hu, high⟩ := written.exists_range hts
    simp only [List.map_eq_cons_iff, List.map_eq_nil_iff] at hus
    obtain ⟨s₁, _, rfl, h₁, s₂, _, rfl, h₂, s₃, _, rfl, h₃, s₄, _, rfl, h₄, s₅, _, rfl, h₅,
      s₆, _, rfl, h₆, s₇, _, rfl, h₇, rfl⟩ := hus
    have atLeast := Condition.Written.mk h₁ field (.compare h₂ (low.elsewhere (h₃.trans ht.symm)))
    have atMost := Condition.Written.mk h₅ field (.compare h₆ (high.elsewhere (h₇.trans hu.symm)))
    exact ⟨_, .cons atLeast h₄ (.single atMost), .range threshold⟩
  | equality threshold =>
    obtain ⟨l, t, p, rfl, field, ht, value⟩ := written.exists_compare hts
    simp only [List.map_eq_cons_iff, List.map_eq_nil_iff] at hus
    obtain ⟨s₁, _, rfl, h₁, s₂, _, rfl, h₂, s₃, _, rfl, h₃, rfl⟩ := hus
    have atLeast := Condition.Written.mk h₁ field (.compare h₂ (value.elsewhere (h₃.trans ht.symm)))
    exact ⟨_, .single atLeast, .equality threshold⟩
  | day =>
    obtain ⟨l, t, p, rfl, field, ht, value⟩ := written.exists_compare hts
    simp only [List.map_eq_cons_iff, List.map_eq_nil_iff] at hus
    obtain ⟨s₁, _, rfl, h₁, s₂, _, rfl, h₂, s₃, _, rfl, h₃, s₄, _, rfl, h₄, s₅, _, rfl, h₅, rfl⟩ :=
      hus
    have range := Condition.Written.mk h₁ field (.range h₂ (value.elsewhere (h₃.trans ht.symm)) h₄
      (value.elsewhere (h₅.trans ht.symm)))
    exact ⟨_, .single range, .day⟩
  | year reads accepts low high spans =>
    obtain ⟨l, t, p, rfl, field, ht, value⟩ := written.exists_compare hts
    simp only [List.map_eq_cons_iff, List.map_eq_nil_iff] at hus
    obtain ⟨s₁, _, rfl, h₁, s₂, _, rfl, h₂, s₃, _, rfl, h₃, s₄, _, rfl, h₄, s₅, _, rfl, h₅, rfl⟩ :=
      hus
    have range := Condition.Written.mk h₁ date
      (.range h₂ (.date h₃ (Date.looksLikeLine_of_parse low))
        h₄ (.date h₅ (Date.looksLikeLine_of_parse high)))
    cases value with
    | number content =>
      cases content.symm.trans ht
      exact ⟨_, .single range, .year reads accepts low high spans⟩
    | text content _ => cases content.symm.trans ht
    | date content _ => cases content.symm.trans ht

/-- A condition has one token behind the sign of its comparison, or three behind its `BETWEEN`. -/
theorem Condition.Written.length_eq {known : String → Prop} {c : Condition} {t u : Token}
    {rest : List Token} (h : c.Written known (t :: u :: rest)) :
    rest.length = if u.content = .keyword .between then 3 else 1 := by
  cases h with
  | mk content field tests =>
    cases tests with
    | compare sign value =>
      obtain ⟨v, rfl⟩ := value.exists_token
      rw [sign]
      rfl
    | range first lower middle upper =>
      obtain ⟨v, rfl⟩ := lower.exists_token
      obtain ⟨w, rfl⟩ := upper.exists_token
      rw [if_pos first]
      rfl

theorem Token.Respelling.exists_test {old new : List Content} (h : Respelling old new) :
    ∃ field sign rest, old = field :: sign :: rest ∧ sign.beginsTest = true ∧
      rest.length = if sign = .keyword .between then 3 else 1 := by
  cases h with
  | range => exact ⟨_, _, _, rfl, rfl, rfl⟩
  | equality => exact ⟨_, _, _, rfl, rfl, rfl⟩
  | day => exact ⟨_, _, _, rfl, rfl, rfl⟩
  | year => exact ⟨_, _, _, rfl, rfl, rfl⟩

/-! ## Reading the texts -/

theorem Token.map_content_of_map_wording {ts : List Token} {ws : List (Content × String)}
    (h : ts.map wording = ws) : ts.map content = ws.map Prod.fst := by
  rw [← h, List.map_map]
  rfl

namespace Query

variable {registry : Registry} {text text' : String} {clauses : List Clause}

/-- The tokens that are spelled otherwise are those of a condition. -/
theorem exists_frame_of_respelling {before ts after : List Token} {new : List Token.Content}
    (cut : Token.tokenize false text = before ++ ts ++ after)
    (spelled : Token.Respelling (ts.map Token.content) new)
    (parsed : parse registry text = .ok clauses) :
    ∃ (k : Clause.Frame) (c : Condition) (stop : Token), clauses = k.clauses [c] ∧
      before = k.before ∧ after = k.after ++ [stop] ∧ c.Written (· ∈ registry.names) ts ∧
      k.Fits (· ∈ registry.names) := by
  obtain ⟨body, stop, cut', canonical, written⟩ := exists_of_parse parsed
  obtain ⟨field, sign, rest, hts, test, length⟩ := spelled.exists_test
  obtain ⟨t, _, rfl, ht, hts⟩ := List.map_eq_cons_iff.1 hts
  obtain ⟨u, us, rfl, rfl, hus⟩ := List.map_eq_cons_iff.1 hts
  have hu : u ∈ body := by
    have mem : u ∈ body ++ [stop] := by
      rw [← cut', cut]
      simp
    refine (List.mem_append.1 mem).resolve_right fun last => ?_
    rw [List.mem_singleton.1 last, canonical.stop_content] at test
    cases test
  obtain ⟨k, c, vs, rfl, rfl, hu, cw, fits⟩ := written.exists_frame hu test
  obtain ⟨t', vs, rfl⟩ := cw.eq_of_beginsTest hu test
  -- The sign stands in the text once, so what is in front of it and behind it is the same.
  have split : Token.tokenize false text = (before ++ [t]) ++ u :: (us ++ after) := by
    rw [cut]
    simp
  have split' : Token.tokenize false text =
      (k.before ++ [t']) ++ u :: (vs ++ (k.after ++ [stop])) := by
    rw [cut']
    simp [Clause.Frame.tokens]
  obtain ⟨front, -, back⟩ := Token.eq_of_append_cons split split' rfl
  obtain ⟨rfl, ht⟩ := List.append_inj' front rfl
  cases ht
  have lengths : us.length = vs.length := by
    rw [cw.length_eq, ← length, ← hus, List.length_map]
  obtain ⟨rfl, rfl⟩ := List.append_inj back lengths
  exact ⟨k, c, stop, rfl, rfl, rfl, cw, fits⟩

/-- Where a condition is spelled otherwise, the rest of the text is read as before. -/
theorem exists_respelled {before old new after : List (Token.Content × String)}
    (h : (Token.tokenize false text).map Token.wording = before ++ old ++ after)
    (h' : (Token.tokenize false text').map Token.wording = before ++ new ++ after)
    (spelled : Token.Respelling (old.map Prod.fst) (new.map Prod.fst))
    (date : "date" ∈ registry.names) (parsed : parse registry text = .ok clauses) :
    ∃ (k : Clause.Frame) (c : Condition) (cs : List Condition) (f : Position → Position),
      clauses = k.clauses [c] ∧ parse registry text' = .ok ((k.moved f).clauses cs) ∧
        c.Respelled cs := by
  obtain ⟨_, ts₃, cut, h, h₃⟩ := List.map_eq_append_iff.1 h
  obtain ⟨ts₁, ts₂, rfl, h₁, h₂⟩ := List.map_eq_append_iff.1 h
  obtain ⟨_, us₃, cut', h', h₃'⟩ := List.map_eq_append_iff.1 h'
  obtain ⟨us₁, us₂, rfl, h₁', h₂'⟩ := List.map_eq_append_iff.1 h'
  rw [← Token.map_content_of_map_wording h₂] at spelled
  obtain ⟨k, c, stop, rfl, rfl, rfl, cw, fits⟩ := exists_frame_of_respelling cut spelled parsed
  obtain ⟨cs, separated, respelled⟩ :=
    spelled.exists_respelled date cw rfl (Token.map_content_of_map_wording h₂')
  -- Around the condition there are the same tokens as before, at other positions.
  rw [← h₃, List.map_append] at h₃'
  obtain ⟨us₃, last, rfl, behind, hlast⟩ := List.map_eq_append_iff.1 h₃'
  obtain ⟨stop', rfl, -⟩ := List.map_eq_singleton_iff.1 hlast
  have around : (k.before ++ k.after).Sublist (Token.tokenize false text) := by
    rw [cut, List.append_assoc]
    exact (List.Sublist.refl _).append
      ((List.sublist_append_left k.after [stop]).trans (List.sublist_append_right ts₂ _))
  have words : (us₁ ++ us₃).map Token.wording = (k.before ++ k.after).map Token.wording := by
    rw [List.map_append, List.map_append, h₁', h₁, behind]
  obtain ⟨f, moved⟩ := Token.exists_moved words
    (((Token.pairwise_before_tokenize false text).sublist around).imp Position.Before.ne)
  rw [List.map_append] at moved
  obtain ⟨rfl, rfl⟩ := List.append_inj moved (by
    rw [← List.length_map Token.wording, h₁', ← h₁, List.length_map, List.length_map])
  refine ⟨k, c, cs, f, rfl, ?_, respelled⟩
  obtain ⟨body, stop'', cut'', canonical⟩ := Token.exists_canonical_tokenize text'
  have same : (k.moved f).tokens us₂ ++ [stop'] = body ++ [stop''] := by
    rw [← cut'', cut']
    simp [Clause.Frame.tokens, Clause.Frame.moved]
  obtain ⟨rfl, -⟩ := List.append_inj' same rfl
  rw [parse, cut'', (Clause.parseTokens_eq_ok_iff canonical).2 (fits f cs us₂ separated)]

/-! ## The respelled query -/

theorem mapM_moved {cs : List Condition} {ps : List Predicate} (f : Position → Position)
    (h : cs.mapM (fun c => c.read registry) = .ok ps) :
    (cs.map (Condition.moved f)).mapM (fun c => c.read registry) = .ok ps := by
  have read (c : Condition) :
      (c.moved f).read registry = (c.read registry).mapError (Failure.moved f) :=
    eq_mapError_of_agree (Condition.agree_read (c.like_moved f))
  rw [mapM_map_mapError read, h]
  rfl

theorem foldlM_moved {q r : Query} {clauses : List Clause} (f : Position → Position)
    (h : clauses.foldlM (addClause registry) q = .ok r) :
    (clauses.map (Clause.moved f)).foldlM (addClause registry) q = .ok r := by
  rw [foldlM_map_mapError (addClause_moved f), h]
  rfl

/-- The clauses of a frame are those in front, the one of its conditions, and those behind. -/
theorem foldlM_frame_eq_ok {k : Clause.Frame} {cs : List Condition} {q : Query} :
    (k.clauses cs).foldlM (addClause registry) {} = .ok q ↔ ∃ q₀ ps₁ ps ps₂ r,
      k.front.foldlM (addClause registry) {} = .ok q₀ ∧
      k.first.mapM (fun c => c.read registry) = .ok ps₁ ∧
      cs.mapM (fun c => c.read registry) = .ok ps ∧
      k.last.mapM (fun c => c.read registry) = .ok ps₂ ∧
      k.back.foldlM (addClause registry) {} = .ok r ∧
      { q₀ with conditions := some (q₀.predicates ++ (ps₁ ++ ps ++ ps₂)) }.merge r = q := by
  rw [Clause.Frame.clauses, List.foldlM_append]
  constructor
  · intro h
    obtain ⟨q₀, front, h⟩ := exists_of_bind_ok h
    rw [List.foldlM_cons] at h
    obtain ⟨_, added, h⟩ := exists_of_bind_ok h
    obtain ⟨_, read, added⟩ := exists_of_bind_ok added
    cases added
    obtain ⟨_, ps₂, upTo, last, rfl⟩ := mapM_append_eq_ok.1 read
    obtain ⟨ps₁, ps, first, middle, rfl⟩ := mapM_append_eq_ok.1 upTo
    rw [foldlM_eq_merge] at h
    cases back : k.back.foldlM (addClause registry) {} with
    | error failure =>
      rw [back] at h
      cases h
    | ok r =>
      rw [back] at h
      exact ⟨q₀, ps₁, ps, ps₂, r, front, first, middle, last, rfl, Except.ok.inj h⟩
  · rintro ⟨q₀, ps₁, ps, ps₂, r, front, first, middle, last, back, rfl⟩
    have read := mapM_append_eq_ok.2
      ⟨_, _, mapM_append_eq_ok.2 ⟨_, _, first, middle, rfl⟩, last, rfl⟩
    rw [front]
    change (_ :: _ : List Clause).foldlM (addClause registry) q₀ = _
    rw [List.foldlM_cons, addClause]
    dsimp only
    rw [read]
    change k.back.foldlM (addClause registry) _ = _
    rw [foldlM_eq_merge, back]
    rfl

/-- Other conditions in a frame change nothing but the predicates of the one that stood there. -/
theorem ofClauses_frame {k : Clause.Frame} {c : Condition} {q : Query}
    (h : ofClauses registry (k.clauses [c]) = .ok q) (f : Position → Position) :
    ∃ before p after, c.read registry = .ok p ∧ q.predicates = before ++ p :: after ∧
      ∀ cs ps, cs.mapM (fun c => c.read registry) = .ok ps →
        ofClauses registry ((k.moved f).clauses cs) =
          .ok { q with conditions := some (before ++ ps ++ after) } := by
  have shown : ¬ q.HidesChart := by
    intro hidden
    obtain ⟨position, -, failed⟩ := ofClauses_of_hidesChart (foldlM_of_ofClauses h) hidden
    cases h.symm.trans failed
  obtain ⟨q₀, ps₁, _, ps₂, r, front, first, single, last, back, rfl⟩ :=
    foldlM_frame_eq_ok.1 (foldlM_of_ofClauses h)
  obtain ⟨p, _, read, none, rfl⟩ := List.forall₂_cons_left_iff.1 (mapM_eq_ok_iff.1 single)
  cases none
  refine ⟨q₀.predicates ++ ps₁, p, ps₂ ++ r.predicates, read, ?_, fun cs ps middle => ?_⟩
  · rw [predicates_merge]
    simp [predicates]
  · refine ofClauses_of_not_hidesChart ?_ shown
    have folded : ((k.moved f).clauses cs).foldlM (addClause registry) {} = _ :=
      foldlM_frame_eq_ok.2 ⟨q₀, ps₁, ps, ps₂, r, foldlM_moved f front, mapM_moved f first, middle,
        mapM_moved f last, foldlM_moved f back, rfl⟩
    rw [folded]
    cases conditions : r.conditions <;> simp [merge, predicates, conditions]

end Query

end Worklog
