import Worklog.Proofs.Decimal.Numeral
import Worklog.Proofs.Query.Equality

/-!
# What is reported of a text

A text that does not compile has an error of its own, which validation and recovery report, with one
exception: an integer of too many digits is a failure that nobody reports (`failure_of_compile`). A
text without such integers is always dealt with (`compile_reports`).

Whatever else could fail once a text has been parsed does not, because the grammar has fixed it: the
numbers are numerals, and formats and chosen values have members (`Clause.Sound`).
-/

namespace Worklog

/-- The digits of an integer that is too long to be read. -/
def Overlong (digits : String) : Prop :=
  '.' ∉ digits.toList ∧ Decimal.Numeral.digitLimit < digits.length

instance (digits : String) : Decidable (Overlong digits) :=
  inferInstanceAs (Decidable (_ ∧ _))

/-- The digits of a number. -/
def Token.number? (t : Token) : Option String :=
  match t.content with
  | .number digits => some digits
  | _ => none

/-- No integer of the text is too long to be read. -/
def Legible (text : String) : Prop :=
  ∀ t ∈ Token.tokenize false text, ∀ digits ∈ t.number?, ¬ Overlong digits

instance (text : String) : Decidable (Legible text) :=
  inferInstanceAs (Decidable (∀ t ∈ Token.tokenize false text, ∀ digits ∈ t.number?, _))

/-- An error of a query, or the failure to read an integer of the text that is too long. -/
def Accounted (text : String) (failure : Failure) : Prop :=
  (∃ e, failure = .query e) ∨ ∃ t ∈ Token.tokenize false text, ∃ digits ∈ t.number?,
    Overlong digits ∧ failure = .tooManyDigits digits.length

/-! ## Literals -/

theorem readNumber_overlong {cs : List Char} (h : ∀ c ∈ cs, Text.isDigit c = true)
    (long : Decimal.Numeral.digitLimit < cs.length) :
    readNumber (.ofList cs) = .error (.tooManyDigits cs.length) := by
  have hne : cs ≠ [] := List.ne_nil_of_length_pos (Nat.zero_lt_of_lt long)
  rw [readNumber, String.toList_ofList, if_neg (Decimal.Numeral.point_not_mem h), readInteger,
    Decimal.Numeral.integer_of_digits hne h, if_pos long]

theorem readNumber_of_digits {cs : List Char} (hne : cs ≠ [])
    (h : ∀ c ∈ cs, Text.isDigit c = true) :
    FailsOnly (fun failure => Overlong (.ofList cs) ∧ failure = .tooManyDigits cs.length)
      (readNumber (.ofList cs)) := by
  by_cases long : Decimal.Numeral.digitLimit < cs.length
  · rw [readNumber_overlong h long]
    refine .error ⟨⟨?_, by rwa [String.length_ofList]⟩, rfl⟩
    rw [String.toList_ofList]
    exact Decimal.Numeral.point_not_mem h
  · rw [readNumber, String.toList_ofList, if_neg (Decimal.Numeral.point_not_mem h), readInteger,
      Decimal.Numeral.integer_of_digits hne h, if_neg long]
    exact .ok _

/-- A numeral is read unless it is an integer that is too long. -/
theorem readNumber_of_numeric {raw : String} (h : Token.Numeric raw.toList) :
    FailsOnly (fun failure => Overlong raw ∧ failure = .tooManyDigits raw.length)
      (readNumber raw) := by
  generalize hcs : raw.toList = cs at h
  obtain rfl : raw = .ofList cs := by rw [← hcs, String.ofList_toList]
  cases h with
  | whole hne digits =>
    rw [String.length_ofList]
    exact readNumber_of_digits hne digits
  | point hne whole fraction =>
    rw [readNumber, String.toList_ofList, if_pos (by simp), readReal,
      Decimal.Numeral.real?_of_digits hne whole fraction]
    exact .ok _

/-! ## Clauses -/

variable {P : Failure → Prop}

/-- What is known of all values of a test. -/
def Test.All {α : Type} (p : α → Prop) : Test α → Prop
  | .compare _ a => p a
  | .range low high => p low ∧ p high

/-- If the literal writes a number, it is read or fails in one of the ways. -/
def Literal.Sound (P : Failure → Prop) (l : Literal) : Prop :=
  l.kind = .number → FailsOnly P (readNumber l.raw)

/-- The grammar has settled what the parts of a clause may be, down to how numerals fail. -/
def Clause.Sound (P : Failure → Prop) (c : Clause) : Prop :=
  match c.body with
  | .conditions items => ∀ item ∈ items, item.test.All (Literal.Sound P)
  | .columns items => ∀ item ∈ items, ∀ name ∈ item.format, name ∈ Format.all.map Format.name
  | .choice choice value => value ∈ choice.values
  | .unknown _ => True

/-- A name that is listed is the name of something. -/
theorem exists_of_name {α : Type} {all : List α} {nameOf : α → String} {s : String}
    (h : s ∈ all.map nameOf) : ∃ a, all.find? (fun a => nameOf a == s) = some a := by
  obtain ⟨a, ha, rfl⟩ := List.mem_map.1 h
  rw [← Option.isSome_iff_exists, List.find?_isSome]
  exact ⟨a, ha, beq_self_eq_true _⟩

section Reading

variable (hP : ∀ e, P (.query e))

include hP

theorem Literal.Sound.accepted {l : Literal} (hl : l.Sound P) (h : FieldHandler) :
    FailsOnly P (l.accepted h) := by
  have read : FailsOnly P (l.read h) := by
    unfold Literal.read
    split
    · split
      · rename_i hk
        exact hl hk
      · exact .error (hP _)
    · split
      · split
        · exact .ok _
        · exact .error (hP _)
      · exact .error (hP _)
    · exact .ok _
  refine read.bind fun v _ => ?_
  split
  · exact .ok _
  · exact .error (hP _)

theorem Condition.failsOnly_readTest {c : Condition} (hc : c.test.All (Literal.Sound P))
    (h : FieldHandler) : FailsOnly P (c.readTest h) := by
  unfold Condition.readTest
  split
  · rename_i op l ht
    rw [ht] at hc
    split
    · exact (Literal.Sound.accepted hP hc h).bind fun v _ => .ok _
    · exact .error (hP _)
  · rename_i low high ht
    rw [ht] at hc
    split
    · refine (Literal.Sound.accepted hP hc.1 h).bind fun lowest _ => ?_
      refine (Literal.Sound.accepted hP hc.2 h).bind fun highest _ => ?_
      split
      · exact .error (hP _)
      · exact .ok _
    · exact .error (hP _)

theorem Condition.failsOnly_read {c : Condition} (hc : c.test.All (Literal.Sound P))
    (registry : Registry) : FailsOnly P (c.read registry) := by
  unfold Condition.read
  split
  · exact .error (hP _)
  · rename_i h _
    exact (Condition.failsOnly_readTest hP hc h).bind fun t _ => .ok _

theorem ColumnItem.failsOnly_read {c : ColumnItem}
    (hc : ∀ name ∈ c.format, name ∈ Format.all.map Format.name) : FailsOnly P c.read := by
  have format : FailsOnly P (readFormat c.format) := by
    unfold readFormat
    split
    · exact .ok _
    · exact .ok _
    · rename_i name _ hn
      obtain ⟨f, hf⟩ : ∃ f, Format.ofName? name = some f := exists_of_name (hc name hn)
      rw [hf]
      exact .ok _
  unfold ColumnItem.read
  split
  · exact .error (hP _)
  · split
    · exact .error (hP _)
    · exact format.bind fun f _ => .ok _

omit hP in
theorem Query.failsOnly_choose (q : Query) {c : Choice} {value : String} (h : value ∈ c.values) :
    FailsOnly P (q.choose c value) := by
  have chosen {α : Type} {ofName? : String → Option α} {group : String}
      (named : ∃ a, ofName? value = some a) : FailsOnly P (member ofName? group value) := by
    obtain ⟨a, ha⟩ := named
    rw [member, ha]
    exact .ok a
  cases c with
  | _ => exact (chosen (exists_of_name h)).bind fun _ _ => .ok _

theorem Query.failsOnly_addClause (registry : Registry) (q : Query) {c : Clause}
    (hc : c.Sound P) : FailsOnly P (q.addClause registry c) := by
  obtain ⟨body, position⟩ := c
  cases body with
  | conditions items =>
    have read : FailsOnly P (items.mapM fun item => item.read registry) :=
      .mapM fun item hi => Condition.failsOnly_read hP (hc item hi) registry
    exact read.bind fun _ _ => .ok _
  | columns items =>
    have read : FailsOnly P (items.mapM ColumnItem.read) :=
      .mapM fun item hi => ColumnItem.failsOnly_read hP (hc item hi)
    exact read.bind fun _ _ => .ok _
  | choice c value => exact Query.failsOnly_choose q hc
  | unknown name => exact .error (hP _)

theorem Query.failsOnly_ofClauses (registry : Registry) {clauses : List Clause}
    (h : ∀ c ∈ clauses, c.Sound P) : FailsOnly P (ofClauses registry clauses) := by
  have read : FailsOnly P (clauses.foldlM (addClause registry) {}) :=
    .foldlM (fun q c hc => Query.failsOnly_addClause hP registry q (h c hc)) {}
  refine read.bind fun q _ => ?_
  unfold checkChart
  split
  · split
    · exact .ok _
    · exact .error (hP _)
  · exact .ok _

end Reading

/-! ## What the grammar settles -/

section Grammar

variable {known : String → Prop} {ts : List Token}
  (hts : ∀ t ∈ ts, ∀ digits, t.content = .number digits → FailsOnly P (readNumber digits))

include hts

theorem Literal.Written.sound {l : Literal} (h : l.Written ts) : l.Sound P := by
  cases h with
  | number content => exact fun _ => hts _ (List.mem_singleton_self _) _ content
  | text content _ => exact nofun
  | date content _ => exact nofun

theorem Condition.Written.sound {c : Condition} (h : c.Written known ts) :
    c.test.All (Literal.Sound P) := by
  cases h with
  | mk content field tests =>
    rw [List.forall_mem_cons] at hts
    cases tests with
    | compare operator value =>
      rw [List.forall_mem_cons] at hts
      exact value.sound hts.2.2
    | range first lower middle upper =>
      rw [List.forall_mem_cons, List.forall_mem_append, List.forall_mem_cons] at hts
      exact ⟨lower.sound hts.2.2.1, upper.sound hts.2.2.2.2⟩

omit hts in
theorem ColumnItem.Written.sound {c : ColumnItem} (h : c.Written ts) :
    ∀ name ∈ c.format, name ∈ Format.all.map Format.name := by
  cases h with
  | field content formats titles =>
    cases formats with
    | none => exact nofun
    | some word content format =>
      rintro name ⟨⟩
      exact format
  | title word content => exact nofun

omit hts in
theorem Choice.ValueWritten.mem {c : Choice} {value : String} {t : Token}
    (h : c.ValueWritten value t) : value ∈ c.values := by
  cases h with
  | name content mem => exact mem
  | chart content => decide

theorem Clause.Written.sound {c : Clause} (h : c.Written known ts) : c.Sound P := by
  cases h with
  | conditions word items =>
    intro item hi
    obtain ⟨us, hus, hw⟩ := items.exists_of_mem item hi
    exact hw.sound fun t ht => hts t (List.mem_cons_of_mem _ (hus ht))
  | columns word items =>
    intro item hi
    obtain ⟨us, -, hw⟩ := items.exists_of_mem item hi
    exact hw.sound
  | choice word content => exact content.mem

end Grammar

/-! ## Texts -/

theorem Token.number?_eq_some {t : Token} {digits : String} (h : t.content = .number digits) :
    t.number? = some digits := by
  rw [Token.number?, h]

namespace Query

/-- A text that is not compiled has an error, or an integer that is too long. -/
theorem failure_of_compile (registry : Registry) (text : String) :
    FailsOnly (Accounted text) (compile registry text) := by
  have hP : ∀ e, Accounted text (.query e) := fun e => .inl ⟨e, rfl⟩
  have parsed : FailsOnly (Accounted text) (parse registry text) := by
    unfold parse
    split
    · exact .ok _
    · exact .error (hP _)
  refine parsed.bind fun clauses hparse => failsOnly_ofClauses hP registry ?_
  obtain ⟨body, stop, cut, -, written⟩ := exists_of_parse hparse
  have numbers : ∀ t ∈ body, ∀ digits, t.content = .number digits →
      FailsOnly (Accounted text) (readNumber digits) := by
    intro t ht digits hd failure hf
    have mem : t ∈ Token.tokenize false text := by
      rw [cut]
      exact List.mem_append_left _ ht
    have numeric := Token.numeric_of_mem_tokenize mem hd
    exact .inr ⟨t, mem, digits, Token.number?_eq_some hd, readNumber_of_numeric numeric failure hf⟩
  intro c hc
  obtain ⟨us, hus, hw⟩ := written.exists_of_mem c hc
  exact hw.sound fun t ht => numbers t (hus ht)

/--
If no integer in it is too long, a text compiles or has one error. Validation gives that error or
none, and with a fallback that compiles, recovery gives a query and the error.
-/
theorem compile_reports (registry : Registry) (text : String) (legible : Legible text) :
    (∃ q, compile registry text = .ok q ∧ validate registry text = .ok [] ∧
      ∀ fallback, compileOr registry text fallback = .ok (q, none)) ∨
    (∃ e, compile registry text = .error (.query e) ∧ validate registry text = .ok [e] ∧
      ∀ fallback q, compile registry fallback = .ok q →
        compileOr registry text fallback = .ok (q, some e)) := by
  cases h : compile registry text with
  | ok q =>
    refine .inl ⟨q, rfl, by rw [validate, h], fun fallback => ?_⟩
    rw [compileOr, h]
  | error failure =>
    rcases failure_of_compile registry text failure h with ⟨e, rfl⟩ | ⟨t, ht, digits, hd, long, -⟩
    · refine .inr ⟨e, rfl, by rw [validate, h], fun fallback q hq => ?_⟩
      simp only [compileOr, h, hq]
      rfl
    · exact absurd long (legible t ht digits hd)

/-- A year out of bounds is one error. -/
theorem compile_reports_bounds :
    let text := "WHERE year = 12345"
    Legible text ∧ ∃ e, compile .standard text = .error (.query e) ∧
      validate .standard text = .ok [e] := by
  intro text
  have legible : Legible text := by decide +kernel
  have refused : (compile .standard text).toOption = none := by decide +kernel
  refine ⟨legible, ?_⟩
  rcases compile_reports .standard text legible with ⟨q, hq, -⟩ | ⟨e, he, hv, -⟩
  · rw [hq] at refused
    cases refused
  · exact ⟨e, he, hv⟩

end Query

/-! ## Integers that are too long -/

section Ones

theorem Token.found_ones (n : Nat) : Found (.ofList ('1' :: List.replicate n '1')) := by
  have ones : ∀ c ∈ List.replicate n '1', Text.isDigit c = true := by
    intro c hc
    rw [List.eq_of_mem_replicate hc]
    decide
  have whole : extent '1' (List.replicate n '1') = (.number, (List.replicate n '1').length) := by
    have blank : Text.isBlank '1' = false := by decide
    have digit : Text.isDigit '1' = true := by decide
    have run : runLength Text.isDigit (List.replicate n '1') = (List.replicate n '1').length := by
      rw [runLength, List.takeWhile_eq_self_iff.2 ones]
    simp [extent, blank, digit, run, fractionLength]
  rw [found_iff, String.toList_ofList, pieces, whole, List.take_length, List.drop_length, pieces]

namespace Query

theorem readNumber_ones {n : Nat} (h : Decimal.Numeral.digitLimit ≤ n) :
    readNumber (.ofList ('1' :: List.replicate n '1')) = .error (.tooManyDigits (n + 1)) := by
  have digits : ∀ c ∈ '1' :: List.replicate n '1', Text.isDigit c = true := by
    intro c hc
    rw [List.eq_of_mem_replicate (n := n + 1) hc]
    decide
  have long : ('1' :: List.replicate n '1').length = n + 1 := by simp
  rw [readNumber_overlong digits (by omega), long]

theorem compile_ones {n : Nat} (h : Decimal.Numeral.digitLimit ≤ n) :
    compile .standard (equality .year (.ofList ('1' :: List.replicate n '1'))) =
      .error (.tooManyDigits (n + 1)) := by
  have found : Registry.standard.get? Rule.year.name = some (.standard .year) := by
    decide +kernel
  have accepted (position : Position) : Literal.accepted (.standard .year)
      ⟨.number, .ofList ('1' :: List.replicate n '1'), position⟩ =
        .error (.tooManyDigits (n + 1)) := by
    change (readNumber (.ofList ('1' :: List.replicate n '1')) >>= _) = _
    rw [readNumber_ones h]
    rfl
  rw [compile_equality found (Token.found_ones n), accepted]
  rfl

/-- A year of too many digits is a failure that is no error of the query, so nothing reports it. -/
theorem exists_unreported : ∃ text fallback, (∃ q, compile .standard fallback = .ok q) ∧
    compile .standard text = .error (.tooManyDigits 4301) ∧
    validate .standard text = .error (.tooManyDigits 4301) ∧
    compileOr .standard text fallback = .error (.tooManyDigits 4301) := by
  have failure := compile_ones (n := 4300) (Nat.le_refl _)
  have fallback : compile .standard "VIEW summary" = .ok { view := some .summary } :=
    ok_of_toOption (by decide +kernel)
  refine ⟨_, "VIEW summary", ⟨_, fallback⟩, failure, ?_, ?_⟩
  · rw [validate, failure]
  · rw [compileOr, failure]

end Query

end Ones

end Worklog
