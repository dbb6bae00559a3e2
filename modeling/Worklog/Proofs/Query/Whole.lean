import Worklog.Proofs.Decimal.Exact
import Worklog.Proofs.Decimal.Whole
import Worklog.Proofs.Query.Reporting

/-!
# Years and months of any spelling

A year or a month is a whole number within bounds, however it is written. Without a point, a literal
stands for the number that it writes exactly. With a point it is read in binary first, so it stands
for a whole number if it lies so close to it that there is no room for it apart from that number
(`Literal.Denotes`). A text that asks for a year or a month compiles for the literals that stand for
one within bounds, and is refused at the literal for all others (`Query.compile_whole`).
-/

namespace Worklog

open Decimal (Numeral.exact)

/-! ## Literals that stand for whole numbers -/

/-- A literal stands for a whole number if it is read as that number. -/
def Literal.Denotes (raw : String) (n : ℕ) : Prop :=
  let q := Numeral.exact raw.toList
  if '.' ∈ raw.toList then
    (n : ℚ) - 2 ^ ((Nat.clog 2 n : ℤ) - 54) ≤ q ∧ q ≤ n + 2 ^ ((Nat.log 2 n : ℤ) - 53)
  else q = n

instance (raw : String) (n : ℕ) : Decidable (Literal.Denotes raw n) :=
  inferInstanceAs (Decidable (ite _ (_ ∧ _) (_ = _)))

/-- What writes a whole number exactly stands for it. -/
theorem Literal.denotes_of_exact {raw : String} {n : ℕ} (h : Numeral.exact raw.toList = n) :
    Denotes raw n := by
  rw [Denotes, h]
  split
  · constructor
    · rw [sub_le_self_iff]
      positivity
    · rw [le_add_iff_nonneg_right]
      positivity
  · rfl

/-- The whole number that a value is. -/
def Value.whole? : Value → Option ℤ
  | .int n => some n
  | .float x => Decimal.whole? x
  | _ => none

/-- A number of a text is read as what it stands for. -/
theorem exists_readNumber {raw : String} (found : Token.Found raw) (short : ¬ Overlong raw) :
    ∃ v, readNumber raw = .ok v ∧ v.IsNumber ∧
      ∀ n : ℕ, 0 < n → n < 2 ^ 52 → (v.whole? = some ↑n ↔ Literal.Denotes raw n) := by
  obtain ⟨text, t, ht, content⟩ := found
  have numeric := Token.numeric_of_mem_tokenize ht content
  generalize hcs : raw.toList = cs at numeric
  obtain rfl : raw = .ofList cs := by rw [← hcs, String.ofList_toList]
  rw [Overlong, hcs, String.length_ofList] at short
  unfold Literal.Denotes readNumber
  rw [hcs]
  cases numeric with
  | whole hne digits =>
    have point := Decimal.Numeral.point_not_mem digits
    obtain ⟨m, read, exact⟩ :=
      Decimal.Numeral.exists_integer hne digits fun long => short ⟨point, long⟩
    refine ⟨.int m, by rw [if_neg point, readInteger, read], trivial, fun n _ _ => ?_⟩
    rw [if_neg point, exact, Value.whole?, Option.some.injEq]
    norm_cast
  | point hne whole fraction =>
    obtain ⟨x, read, exact⟩ := Decimal.Numeral.exists_real? hne whole fraction
    refine ⟨.float x, by rw [if_pos (by simp), readReal, read], trivial, fun n low high => ?_⟩
    have small : |((n : ℤ) : ℚ)| < 2 ^ 1024 := by
      rw [Int.cast_natCast]
      exact Decimal.abs_natCast_lt (by omega)
    rw [if_pos (by simp), Value.whole?, exact.whole?_eq_some_iff small, Int.cast_natCast,
      Decimal.rounded_eq_natCast_iff low high]

/-! ## Bounds -/

namespace Rule

/-- The greatest number that a rule accepts, if it accepts whole numbers from one on. -/
def greatest? : Rule → Option ℕ
  | .year => some 9999
  | .month => some 12
  | _ => none

theorem accept_of_greatest? {field : Rule} {high : ℕ} (h : field.greatest? = some high)
    (v : Value) : field.accept v = wholeWithin field.name 1 high v := by
  cases field <;> cases h <;> rfl

theorem kind_of_greatest? {field : Rule} {high : ℕ} (h : field.greatest? = some high) :
    field.kind = .number := by
  cases field <;> cases h <;> rfl

theorem greatest?_lt {field : Rule} {high : ℕ} (h : field.greatest? = some high) :
    high < 2 ^ 52 := by
  cases field <;> cases h <;> decide

variable {label : String} {low high : ℤ} {v : Value}

theorem wholeWithin_eq_ok {n : ℤ} (h : v.whole? = some n) (within : low ≤ n ∧ n ≤ high) :
    wholeWithin label low high v = .ok (.int n) := by
  cases v with
  | int m =>
    cases h
    simp only [wholeWithin, if_pos within]
  | float x =>
    rw [Value.whole?] at h
    simp only [wholeWithin, h, if_pos within]
  | text s => cases h
  | date d => cases h
  | absent => cases h

theorem wholeWithin_eq_error (hv : v.IsNumber)
    (beyond : ∀ n, low ≤ n → n ≤ high → v.whole? ≠ some n) :
    ∃ cause, cause.stage = .meaning ∧ cause.code = "QL_021" ∧
      wholeWithin label low high v = .error cause := by
  have out {n : ℤ} (h : v.whole? = some n) : ¬ (low ≤ n ∧ n ≤ high) :=
    fun within => beyond n within.1 within.2 h
  cases v with
  | int n => exact ⟨.outOfBounds label low high (.int n), rfl, rfl, if_neg (out rfl)⟩
  | float x =>
    simp only [wholeWithin]
    cases h : Decimal.whole? x with
    | none => exact ⟨.notWhole label (.float x), rfl, rfl, rfl⟩
    | some n => exact ⟨.outOfBounds label low high (.int n), rfl, rfl, if_neg (out h)⟩
  | text s => cases hv
  | date d => cases hv
  | absent => cases hv

end Rule

/-! ## Texts -/

theorem Literal.accepted_of_number {field : Rule} (kind : field.kind = .number) {raw : String}
    {v : Value} (read : readNumber raw = .ok v) (position : Position) :
    accepted (.standard field) ⟨.number, raw, position⟩ =
      (field.accept v).mapError fun cause => .query (.located position cause) := by
  have rule : (FieldHandler.standard field).rule = field := rfl
  simp only [accepted, Literal.read, rule, kind, if_true, read, bind, Except.bind]
  cases field.accept v <;> rfl

theorem Registry.IsDefault.get?_of_greatest? {registry : Registry} (hr : registry.IsDefault)
    {field : Rule} {high : ℕ} (h : field.greatest? = some high) :
    registry.get? field.name = some (.standard field) := by
  cases field <;> cases h <;> exact hr.get?_standard (by decide +kernel)

namespace Query

/--
A text that asks for a year or a month compiles if its literal stands for a whole number within the
bounds of the field, and asks for just that number. Otherwise the literal is refused for its value.
-/
theorem compile_whole {registry : Registry} (hr : registry.IsDefault) {field : Rule} {high : ℕ}
    (bounded : field.greatest? = some high) {raw : String} (found : Token.Found raw)
    (short : ¬ Overlong raw) :
    (∀ n : ℕ, 1 ≤ n → n ≤ high → Literal.Denotes raw n →
      compile registry (equality field raw) =
        .ok { conditions := some [⟨field.name, .compare .eq (.int n)⟩] }) ∧
    ((∀ n : ℕ, 1 ≤ n → n ≤ high → ¬ Literal.Denotes raw n) →
      ∃ cause, cause.stage = .meaning ∧ cause.code = "QL_021" ∧
        compile registry (equality field raw) =
          .error (.query (.located ⟨1, 10 + field.name.length⟩ cause))) := by
  obtain ⟨v, read, number, denotes⟩ := exists_readNumber found short
  rw [compile_equality (hr.get?_of_greatest? bounded) found,
    Literal.accepted_of_number (Rule.kind_of_greatest? bounded) read,
    Rule.accept_of_greatest? bounded]
  have room := Rule.greatest?_lt bounded
  constructor
  · intro n least greatest hn
    rw [Rule.wholeWithin_eq_ok ((denotes n least (by omega)).2 hn) (by omega)]
    rfl
  · intro none
    have beyond (n : ℤ) (least : 1 ≤ n) (greatest : n ≤ high) : v.whole? ≠ some n := by
      lift n to ℕ using by omega
      intro hv
      exact none n (by omega) (by omega) ((denotes n (by omega) (by omega)).1 hv)
    obtain ⟨cause, stage, code, refused⟩ := Rule.wholeWithin_eq_error number beyond
    exact ⟨cause, stage, code, by rw [refused]; rfl⟩

/-- A month with zeros around it, and one that is close to a whole number but not close enough. -/
theorem compile_whole_near_twelve :
    (Token.Found "012.00" ∧ Literal.Denotes "012.00" 12 ∧
      compile .standard "WHERE month = 012.00" =
        .ok { conditions := some [⟨"month", .compare .eq (.int 12)⟩] }) ∧
    Token.Found "12.000000000000001" ∧ ∃ cause, cause.code = "QL_021" ∧
      compile .standard "WHERE month = 12.000000000000001" =
        .error (.query (.located ⟨1, 15⟩ cause)) := by
  have bounded : Rule.month.greatest? = some 12 := rfl
  have padded : Token.Found "012.00" := Token.found_iff.2 (by decide +kernel)
  have twelve : Literal.Denotes "012.00" 12 := Literal.denotes_of_exact (by decide +kernel)
  have near : Token.Found "12.000000000000001" := Token.found_iff.2 (by decide +kernel)
  have apart : ∀ n ≤ 12, ¬ Literal.Denotes "12.000000000000001" n := by decide +kernel
  obtain ⟨cause, -, code, refused⟩ :=
    (compile_whole (.inl rfl) bounded near (by decide)).2 fun n _ => apart n
  exact ⟨⟨padded, twelve, (compile_whole (.inl rfl) bounded padded (by decide)).1 12 (by decide)
    (by decide) twelve⟩, near, cause, code, refused⟩

/-- A month that is close to a whole number is taken for that number. -/
theorem compile_whole_misread :
    (∀ n : ℕ, Numeral.exact "12.0000000000000001".toList ≠ n) ∧
      compile .standard "WHERE month = 12.0000000000000001" =
        .ok { conditions := some [⟨"month", .compare .eq (.int 12)⟩] } := by
  constructor
  · intro n h
    have den : (Numeral.exact "12.0000000000000001".toList).den = 10 ^ 16 := by decide +kernel
    rw [h, Rat.den_natCast] at den
    cases den
  · exact ok_of_toOption (by decide +kernel)

end Query

end Worklog
