import Worklog.Amount
import Worklog.Proofs.Date.Basic
import Worklog.Proofs.Decimal.Exact

/-!
# What a shown number denotes

A number with fixed places is shown with a sign, whole digits that commas may part, a point and the
digits of the places. What it denotes is read off this text alone (`denoted`). For a finite number
it is the nearest decimal with as many places, of two that are equally near the one that ends in an
even digit (`denoted_fixed`): no digit is lost to the commas, and the sign stands also where all
digits are zero.
-/

namespace Worklog

/-- The number that a text denotes by its sign and its digits, the commas between them left out. -/
def denoted (s : String) : ℚ :=
  match Decimal.takeSign s.toList with
  | (negative, digits) =>
    (if negative then -1 else 1) * Decimal.Numeral.exact (digits.filter (· != ','))

theorem denoted_of_takeSign {s : String} {negative : Bool} {digits : List Char}
    (h : Decimal.takeSign s.toList = (negative, digits)) :
    denoted s =
      (if negative then -1 else 1) * Decimal.Numeral.exact (digits.filter (· != ',')) := by
  rw [denoted, h]

namespace Decimal

open Numeral (exact_of_point number_append)

/-! ## Digits -/

theorem digitValue?_of_isDigit {c : Char} (h : c.isDigit = true) :
    Text.digitValue? c = some (c.toNat - '0'.toNat) := by
  have range : 0x30 ≤ c.toNat ∧ c.toNat ≤ 0x39 := by
    simpa [Char.isDigit, UInt32.le_iff_toNat_le] using h
  rw [Text.digitValue?, if_pos (by omega), if_pos range]
  rfl

theorem isDigit_of_isDigit {cs : List Char} (h : ∀ c ∈ cs, c.isDigit = true) :
    ∀ c ∈ cs, Text.isDigit c = true := by
  intro c hc
  rw [Text.isDigit, digitValue?_of_isDigit (h c hc), Option.isSome_some]

theorem number_eq_ofDigitChars {cs : List Char} (h : ∀ c ∈ cs, c.isDigit = true) :
    Text.number cs = Nat.ofDigitChars 10 cs 0 := by
  refine List.foldl_ext _ _ 0 fun n c hc => ?_
  rw [digitValue?_of_isDigit (h c hc), Option.getD_some]

theorem isDigit_of_mem_toDigits {n : Nat} : ∀ c ∈ Nat.toDigits 10 n, c.isDigit = true :=
  fun _ => Nat.isDigit_of_mem_toDigits (by decide) (by decide)

theorem number_toDigits (n : Nat) : Text.number (Nat.toDigits 10 n) = n := by
  rw [number_eq_ofDigitChars isDigit_of_mem_toDigits, Nat.ofDigitChars_ten_toDigits]

theorem number_padded (width n : Nat) : Text.number (Date.padded width n) = n := by
  rw [number_eq_ofDigitChars fun _ => Date.isDigit_of_mem_padded, Date.ofDigitChars_padded]

/-! ## Commas -/

theorem mem_groupThousands {c : Char} {ds : List Char} (h : c ∈ groupThousands ds) :
    c ∈ ds ∨ c = ',' := by
  fun_induction groupThousands ds with
  | case1 => cases h
  | case2 d rest _ ih => grind
  | case3 d rest _ ih => grind

/-- Without the commas the digits are what they were. -/
theorem filter_groupThousands {ds : List Char} (h : ',' ∉ ds) :
    (groupThousands ds).filter (· != ',') = ds := by
  fun_induction groupThousands ds with
  | case1 => rfl
  | case2 d rest _ ih =>
    rw [List.mem_cons, not_or] at h
    simp [ih h.2, Ne.symm h.1]
  | case3 d rest _ ih =>
    rw [List.mem_cons, not_or] at h
    simp [ih h.2, Ne.symm h.1]

/-- The whole digits of a number with places, with commas or without. -/
def wholeDigits (grouped : Bool) (n : Nat) : List Char :=
  if grouped then groupThousands (Nat.toDigits 10 n) else Nat.toDigits 10 n

/-- The sign and the whole digits, which stand in front of the point. -/
def front (negative grouped : Bool) (n : Nat) : List Char :=
  (if negative then ['-'] else []) ++ wholeDigits grouped n

theorem placed_eq (grouped : Bool) (places n : Nat) : placed grouped places n =
    wholeDigits grouped (n / tenTo places) ++ '.' :: Date.padded places (n % tenTo places) :=
  rfl

theorem mem_wholeDigits {grouped : Bool} {n : Nat} {c : Char} (h : c ∈ wholeDigits grouped n) :
    c.isDigit = true ∨ c = ',' := by
  cases grouped with
  | false => exact .inl (isDigit_of_mem_toDigits c h)
  | true => exact (mem_groupThousands h).imp_left (isDigit_of_mem_toDigits c)

theorem filter_wholeDigits (grouped : Bool) (n : Nat) :
    (wholeDigits grouped n).filter (· != ',') = Nat.toDigits 10 n := by
  have none : ',' ∉ Nat.toDigits 10 n := fun h => nomatch isDigit_of_mem_toDigits _ h
  cases grouped with
  | false => exact List.filter_eq_self.2 fun c hc => bne_iff_ne.2 fun hcomma => none (hcomma ▸ hc)
  | true => exact filter_groupThousands none

theorem exists_wholeDigits (grouped : Bool) (n : Nat) :
    ∃ d rest, wholeDigits grouped n = d :: rest ∧ d.isDigit = true := by
  obtain ⟨d, rest, cut⟩ := List.exists_cons_of_ne_nil (Nat.toDigits_ne_nil (n := n) (b := 10))
  have digit : d.isDigit = true := isDigit_of_mem_toDigits d (cut ▸ List.mem_cons_self ..)
  cases grouped with
  | false => exact ⟨d, rest, cut, digit⟩
  | true =>
    rw [wholeDigits, if_pos rfl, cut, groupThousands]
    split
    · exact ⟨d, _, rfl, digit⟩
    · exact ⟨d, _, rfl, digit⟩

theorem length_padded_places {places n : Nat} (hp : 0 < places) :
    (Date.padded places (n % tenTo places)).length = places :=
  Date.length_padded
    ((Nat.length_toDigits_le_iff (by decide) hp).2 (Nat.mod_lt _ (Nat.pow_pos (by decide))))

/-- The digits around the point write the number, scaled by its places. -/
theorem exact_placed {grouped : Bool} {places n : Nat} (hp : 0 < places) :
    Numeral.exact ((placed grouped places n).filter (· != ',')) = n / 10 ^ places := by
  have places_digits : ∀ c ∈ Date.padded places (n % tenTo places), (c != ',') = true := by
    intro c hc
    refine bne_iff_ne.2 ?_
    rintro rfl
    cases Date.isDigit_of_mem_padded hc
  rw [placed_eq, List.filter_append, filter_wholeDigits, List.filter_cons_of_pos (by decide),
    List.filter_eq_self.2 places_digits,
    exact_of_point (isDigit_of_isDigit isDigit_of_mem_toDigits), number_append, number_toDigits,
    number_padded, length_padded_places hp, zpow_neg, zpow_natCast, ← div_eq_mul_inv]
  congr 2
  exact Nat.div_add_mod' n (tenTo places)

/-! ## Rounding -/

theorem cast_tenTo (k : ℕ) : ((tenTo k : ℕ) : ℚ) = 10 ^ k :=
  Nat.cast_pow 10 k

/-- Whole numbers are divided to the nearest one. -/
theorem roundHalfEven_eq (n : Nat) {d : Nat} (hd : 0 < d) :
    (roundHalfEven n d : ℤ) = roundEven (n / d) := by
  have pos : (0 : ℚ) < d := Nat.cast_pos.2 hd
  have floor : ⌊(n / d : ℚ)⌋ = (n / d : ℕ) := Rat.floor_natCast_div_natCast n d
  have fract : Int.fract (n / d : ℚ) = (n % d : ℕ) / d := by
    have whole : ((n / d : ℕ) * d + (n % d : ℕ) : ℚ) = n := by
      exact_mod_cast Nat.div_add_mod' n d
    rw [Int.fract, floor, Int.cast_natCast, ← whole]
    field_simp
    ring
  have below : 2 * Int.fract (n / d : ℚ) < 1 ↔ 2 * (n % d) < d := by
    rw [fract, mul_div_assoc', div_lt_one pos]
    exact_mod_cast Iff.rfl
  have above : 1 < 2 * Int.fract (n / d : ℚ) ↔ d < 2 * (n % d) := by
    rw [fract, mul_div_assoc', one_lt_div pos]
    exact_mod_cast Iff.rfl
  unfold roundHalfEven roundEven
  simp only [below, above, floor]
  split_ifs
  all_goals omega

/-- A finite number with places, rounded to them. -/
theorem exists_fixed (grouped : Bool) (places : Nat) {x : Float} (hx : x.isFinite = true) :
    ∃ negative n, (fixed grouped places x).toList =
        front negative grouped (n / tenTo places) ++ '.' :: Date.padded places (n % tenTo places) ∧
      signed negative n = roundEven (value x * 10 ^ places) := by
  obtain ⟨negative, m, e, he⟩ := exists_exact_of_isFinite hx
  refine ⟨negative, roundHalfEven (m * twoTo e.toNat * tenTo places) (twoTo (-e).toNat), ?_, ?_⟩
  · rw [fixed, he]
    cases negative <;> simp [front, placed_eq]
  · have scale : (2 : ℚ) ^ e = twoTo e.toNat / twoTo (-e).toNat := by
      conv_lhs => rw [← Int.toNat_sub_toNat_neg e]
      rw [zpow_sub₀ (by norm_num), zpow_natCast, zpow_natCast, cast_twoTo, cast_twoTo]
    have quotient : ((m * twoTo e.toNat * tenTo places : ℕ) : ℚ) / twoTo (-e).toNat =
        m * 2 ^ e * 10 ^ places := by
      rw [scale, Nat.cast_mul, Nat.cast_mul, cast_tenTo]
      ring
    have nearest := roundHalfEven_eq (m * twoTo e.toNat * tenTo places)
      (show 0 < twoTo (-e).toNat from Nat.pow_pos (by decide))
    rw [quotient] at nearest
    rw [(value_of_exact he).2]
    cases negative with
    | false => exact nearest
    | true =>
      have flipped : ((signed true m : ℤ) : ℚ) * 2 ^ e * 10 ^ places =
          -(m * 2 ^ e * 10 ^ places) := by
        rw [signed, if_pos rfl, Int.cast_neg, Int.cast_natCast]
        ring
      rw [flipped, roundEven_neg, ← nearest]
      rfl

/-! ## What is denoted -/

theorem takeSign_front (negative grouped : Bool) (n : Nat) (rest : List Char) :
    takeSign (front negative grouped n ++ rest) = (negative, wholeDigits grouped n ++ rest) := by
  cases negative with
  | true => rfl
  | false =>
    obtain ⟨d, ds, cut, digit⟩ := exists_wholeDigits grouped n
    rw [front, cut]
    exact Numeral.takeSign_of_isDigit digit _

/-- A number with places denotes the nearest decimal with as many. -/
theorem denoted_fixed {grouped : Bool} {places : Nat} (hp : 0 < places) {x : Float}
    (hx : x.isFinite = true) :
    denoted (fixed grouped places x) = roundEven (value x * 10 ^ places) / 10 ^ places := by
  obtain ⟨negative, n, text, rounded⟩ := exists_fixed grouped places hx
  have split := takeSign_front negative grouped (n / tenTo places)
    ('.' :: Date.padded places (n % tenTo places))
  rw [← text] at split
  rw [denoted_of_takeSign split, ← placed_eq, exact_placed hp, ← rounded]
  cases negative <;> simp [signed, neg_div]

end Decimal

end Worklog
