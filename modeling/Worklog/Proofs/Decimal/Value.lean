import Worklog.Proofs.Decimal.Nearest
import Worklog.Proofs.Decimal.Reading

/-!
# The value of a number

A finite number is a rational one. The format has one way to write each (`Canonical`), and what is
written in this way is kept when it is stored, if its value is below the overflow threshold
(`unpack_pack_of_lt`), and infinite otherwise (`unpack_pack_of_le`). Finite numbers are ordered as
their values are (`lt_iff_value_lt`, `le_iff_value_le`), and a value determines a number up to the
sign of a zero (`eq_of_value_eq`). It is the value that the program reads off the bits of a number
(`value_of_exact`, `whole?_eq_some_iff`).
-/

namespace Worklog.Decimal

open Float.Model UnpackedFloat

/-- Whether a number is written in the one way that the format has for it. -/
def Canonical : UnpackedFloat → Prop
  | .finite _ m e _ => m < 2 ^ 53 ∧ -1074 ≤ e ∧ (2 ^ 52 ≤ m ∨ e = -1074)
  | _ => True

/-- The value of a finite number; anything else counts as zero. -/
def valueOf : UnpackedFloat → ℚ
  | .finite s m e _ => s.apply m * 2 ^ e
  | _ => 0

@[simp] theorem valueOf_zero (s : Sign) : valueOf (.zero s) = 0 := rfl

/-- The value of a finite number; anything else counts as zero. -/
def value (x : Float) : ℚ :=
  valueOf x.toModel.unpack

theorem exists_of_isFinite {a : UnpackedFloat} (h : a.isFinite = true) :
    (∃ s, a = .zero s) ∨ ∃ s m e hm, a = .finite s m e hm := by
  rcases a with _ | _ | s | ⟨s, m, e, hm⟩
  · cases h
  · cases h
  · exact .inl ⟨s, rfl⟩
  · exact .inr ⟨s, m, e, hm, rfl⟩

/-! ## What is stored -/

theorem toNat_one_append (y : BitVec 52) : (1#1 ++ y).toNat = 2 ^ 52 + y.toNat := by
  rw [BitVec.toNat_append, ← Nat.shiftLeft_add_eq_or_of_lt y.isLt]
  rfl

theorem canonical_unpack (x : Float.Model) : Canonical x.unpack := by
  unfold Float.Model.unpack UnpackedFloat.unpack
  extract_lets mantissa exponent place sign s
  have bias : (Format.binary64.exponentBias : ℤ) = 1023 := rfl
  split
  · split
    · trivial
    · trivial
  · split
    · rename_i h
      split
      · trivial
      · refine ⟨mantissa.isLt.trans (by decide), ?_⟩
        have : exponent.toNat = 0 := congrArg BitVec.toNat h
        simp only [place, bias]
        omega
    · rename_i h
      have : exponent.toNat ≠ 0 := fun h0 => h (BitVec.eq_of_toNat_eq h0)
      refine ⟨(1#1 ++ mantissa).isLt, ?_, .inl ?_⟩
      · simp only [place, bias]
        omega
      · rw [toNat_one_append]
        exact Nat.le_add_right ..

theorem unpack_packComponents {s : Sign} {x : BitVec 11} (y : BitVec 52) (hx : x ≠ -1)
    (hx0 : x ≠ 0) : ∃ h, UnpackedFloat.unpack .binary64 (packComponents .binary64 s x y) =
      .finite s (2 ^ 52 + y.toNat) (x.toNat - 1075) h := by
  unfold UnpackedFloat.unpack
  extract_lets mantissa exponent place sign s'
  have hm : mantissa = y := unpackMantissa_packComponents
  have he : exponent = x := unpackExponent_packComponents
  have hs : s' = s := by simp only [s', sign, unpackSign_packComponents, Sign.ofBitVec_toBitVec]
  have hp : place = x.toNat - 1075 := by simp only [place, he]; rfl
  rw [if_neg (he ▸ hx), if_neg (he ▸ hx0)]
  refine ⟨by positivity, ?_⟩
  congr 1
  exact (toNat_one_append mantissa).trans (by rw [hm])

theorem unpack_packComponents_zero {s : Sign} {y : BitVec 52} (hy : y ≠ 0) :
    ∃ h, UnpackedFloat.unpack .binary64 (packComponents .binary64 s 0 y) =
      .finite s y.toNat (-1074) h := by
  unfold UnpackedFloat.unpack
  extract_lets mantissa exponent place sign s'
  have hm : mantissa = y := unpackMantissa_packComponents
  have he : exponent = 0 := unpackExponent_packComponents
  have hs : s' = s := by simp only [s', sign, unpackSign_packComponents, Sign.ofBitVec_toBitVec]
  have hp : place = -1075 := by simp only [place, he]; rfl
  rw [if_neg (by rw [he]; decide), if_pos (by exact he), dif_neg (by rw [hm]; exact hy)]
  refine ⟨Nat.pos_of_ne_zero fun h => hy (BitVec.eq_of_toNat_eq h), ?_⟩
  congr 1
  · rw [hm]
  · rw [hp]
    rfl

/-- What is written in the one way is kept when it is stored, if its place is not too high. -/
theorem unpack_pack_of_le_place {s : Sign} {m : ℕ} {e : ℤ} {h : 0 < m}
    (hc : Canonical (.finite s m e h)) (he : e ≤ 971) :
    (Float.Model.pack (.finite s m e h)).unpack = .finite s m e h := by
  obtain ⟨small, least, full⟩ := hc
  have bias : (Format.binary64.exponentBias : Int) = 1023 := rfl
  have bits : Format.binary64.exponentBits = 11 := rfl
  have digits : m.log2 < 53 := (Nat.log2_lt h.ne').2 small
  simp only [Float.Model.unpack, Float.Model.pack, UnpackedFloat.pack, bias]
  split_ifs with large normal
  · change 2048 ≤ _ at large
    omega
  · -- The leading digit is not stored; it is put back when the number is read.
    change m.log2 + 1 = 53 at normal
    have low : 2 ^ 52 ≤ m := (Nat.le_log2 h.ne').1 (by omega)
    have place : (BitVec.ofNat 11 (e + 1023 + 52).toNat).toNat = (e + 1075).toNat := by
      rw [BitVec.toNat_ofNat, Nat.mod_eq_of_lt (by omega)]
      omega
    obtain ⟨_, hu⟩ := @unpack_packComponents s (BitVec.ofNat 11 (e + 1023 + 52).toNat)
      (BitVec.ofNat 52 m)
      (fun h0 => by
        have := place.symm.trans (congrArg BitVec.toNat h0)
        change _ = 2047 at this
        omega)
      (fun h0 => by
        have := place.symm.trans (congrArg BitVec.toNat h0)
        change _ = 0 at this
        omega)
    refine hu.trans ?_
    congr 1
    · rw [BitVec.toNat_ofNat]
      omega
    · omega
  · change m.log2 + 1 ≠ 53 at normal
    have below : m < 2 ^ 52 := (Nat.log2_lt h.ne').1 (by omega)
    have mantissa : (BitVec.ofNat 52 m).toNat = m := by
      rw [BitVec.toNat_ofNat, Nat.mod_eq_of_lt below]
    obtain ⟨_, hu⟩ := @unpack_packComponents_zero s (BitVec.ofNat 52 m) (fun h0 => by
      have := mantissa.symm.trans (congrArg BitVec.toNat h0)
      exact h.ne' this)
    refine hu.trans ?_
    congr 1
    omega

theorem unpack_pack_of_place_lt {s : Sign} {m : ℕ} {e : ℤ} {h : 0 < m} (he : 971 < e) :
    (Float.Model.pack (.finite s m e h)).unpack = .infinity s := by
  have bias : (Format.binary64.exponentBias : Int) = 1023 := rfl
  simp only [Float.Model.unpack, Float.Model.pack, UnpackedFloat.pack, bias]
  rw [if_pos]
  · exact unpack_packedInfinity s
  · change 2048 ≤ _
    omega

theorem abs_valueOf (s : Sign) (m : ℕ) (e : ℤ) (h : 0 < m) :
    |valueOf (.finite s m e h)| = m * 2 ^ e := by
  have : (0 : ℚ) ≤ m * 2 ^ e := by positivity
  cases s
  · rw [valueOf, Sign.apply, Int.cast_neg, neg_mul, abs_neg, Int.cast_natCast, abs_of_nonneg this]
  · rw [valueOf, Sign.apply, Int.cast_natCast, abs_of_nonneg this]

/-- The place of a number is too high just if its value is. -/
theorem abs_valueOf_lt_iff {s : Sign} {m : ℕ} {e : ℤ} {h : 0 < m}
    (hc : Canonical (.finite s m e h)) : |valueOf (.finite s m e h)| < 2 ^ 1024 ↔ e ≤ 971 := by
  obtain ⟨small, least, full⟩ := hc
  rw [abs_valueOf, ← zpow_natCast]
  constructor
  · intro below
    by_contra high
    have digits : (2 : ℚ) ^ 52 ≤ m := by exact_mod_cast full.resolve_right (by omega)
    have place : (2 : ℚ) ^ (972 : ℤ) ≤ 2 ^ e := zpow_le_zpow_right₀ one_le_two (by omega)
    have : (2 : ℚ) ^ 52 * 2 ^ (972 : ℤ) ≤ m * 2 ^ e :=
      mul_le_mul digits place (by positivity) (by positivity)
    rw [← zpow_natCast, ← zpow_add₀ two_ne_zero] at this
    exact absurd below this.not_gt
  · intro low
    have digits : (m : ℚ) < 2 ^ 53 := by exact_mod_cast small
    have place : (2 : ℚ) ^ e ≤ 2 ^ (971 : ℤ) := zpow_le_zpow_right₀ one_le_two low
    have : (m : ℚ) * 2 ^ e < 2 ^ 53 * 2 ^ (971 : ℤ) :=
      mul_lt_mul digits place (by positivity) (by positivity)
    rwa [← zpow_natCast, ← zpow_add₀ two_ne_zero] at this

theorem unpack_pack_of_lt {a : UnpackedFloat} (hc : Canonical a) (hf : a.isFinite = true)
    (h : |valueOf a| < 2 ^ 1024) : (Float.Model.pack a).unpack = a := by
  rcases exists_of_isFinite hf with ⟨s, rfl⟩ | ⟨s, m, e, hm, rfl⟩
  · exact unpack_packedZero
  · exact unpack_pack_of_le_place hc ((abs_valueOf_lt_iff hc).1 h)

theorem unpack_pack_of_le {a : UnpackedFloat} (hc : Canonical a) (h : 2 ^ 1024 ≤ |valueOf a|) :
    (0 < valueOf a → (Float.Model.pack a).unpack = .infinity .positive) ∧
      (valueOf a < 0 → (Float.Model.pack a).unpack = .infinity .negative) := by
  rcases a with s | _ | s | ⟨s, m, e, hm⟩
  · simp [valueOf]
  · simp [valueOf]
  · simp [valueOf]
  · have high := unpack_pack_of_place_lt (s := s) (h := hm)
      (not_le.1 (mt (abs_valueOf_lt_iff hc).2 (not_lt.2 h)))
    have size : (0 : ℚ) < m * 2 ^ e := by positivity
    cases s
    · refine ⟨fun pos => absurd pos ?_, fun _ => high⟩
      simp only [valueOf, Sign.apply]
      push_cast
      linarith
    · refine ⟨fun _ => high, fun neg => absurd neg ?_⟩
      simp only [valueOf, Sign.apply]
      push_cast
      linarith

/-! ## Values of numbers -/

theorem onGrid_valueOf {a : UnpackedFloat} (hc : Canonical a) : OnGrid (valueOf a) := by
  rcases a with _ | _ | _ | ⟨s, m, e, hm⟩
  · exact onGrid_zero
  · exact onGrid_zero
  · exact onGrid_zero
  · refine ⟨s.apply m, e, ?_, hc.2.1, rfl⟩
    have := hc.1
    cases s
    all_goals
      simp only [Sign.apply, abs_neg, Nat.abs_cast]
      exact_mod_cast this

/-- Finite numbers are below the overflow threshold. -/
theorem abs_value_lt {x : Float} (h : x.isFinite = true) : |value x| < 2 ^ 1024 := by
  have kept : (Float.Model.pack x.toModel.unpack).unpack = x.toModel.unpack :=
    congrArg (UnpackedFloat.unpack .binary64) (pack_unpack_of_valid x.toModel.valid)
  have canonical := canonical_unpack x.toModel
  rw [value]
  rcases exists_of_isFinite (a := x.toModel.unpack) h with ⟨s, hu⟩ | ⟨s, m, e, hm, hu⟩
  · rw [hu, valueOf_zero, abs_zero]
    positivity
  · rw [hu] at kept canonical
    rw [hu, abs_valueOf_lt_iff canonical]
    by_contra high
    rw [unpack_pack_of_place_lt (not_le.1 high)] at kept
    cases kept

theorem onGrid_value (x : Float) : OnGrid (value x) :=
  onGrid_valueOf (canonical_unpack x.toModel)

/-- Every value is a multiple of the least place. -/
theorem OnGrid.exists_eq_least {q : ℚ} (h : OnGrid q) : ∃ n : ℤ, q = n * 2 ^ (-1074 : ℤ) := by
  obtain ⟨m, e, -, he, rfl⟩ := h
  exact exists_eq_mul_zpow m he

/-- Sums of values have no digits below the least place. -/
theorem exists_value_add_eq (x y : Float) :
    ∃ n : ℤ, value x + value y = n * 2 ^ (-1074 : ℤ) := by
  obtain ⟨n, hn⟩ := (onGrid_value x).exists_eq_least
  obtain ⟨n', hn'⟩ := (onGrid_value y).exists_eq_least
  exact ⟨n + n', by rw [hn, hn', Int.cast_add, add_mul]⟩

/-! ## Exact values -/

theorem ofBitVec_unpackSign (x : Float.Model) :
    Sign.ofBitVec (@unpackSign .binary64 x.toBits.toBitVec) =
      if (x.toBits.toNat / 2 ^ 63 == 1) = true then .negative else .positive := by
  have bit : (@unpackSign .binary64 x.toBits.toBitVec).toNat = x.toBits.toNat / 2 ^ 63 % 2 := by
    rw [unpackSign, BitVec.toNat_cast, BitVec.extractLsb_toNat, Nat.shiftRight_eq_div_pow]
    rfl
  have top : x.toBits.toNat / 2 ^ 63 < 2 := Nat.div_lt_of_lt_mul x.toBits.toNat_lt
  rw [Nat.mod_eq_of_lt top] at bit
  rw [Sign.ofBitVec]
  split
  · rename_i zero
    rw [zero] at bit
    rw [← bit]
    rfl
  · rename_i nonzero
    rw [if_pos]
    rw [beq_iff_eq]
    by_contra other
    refine nonzero (BitVec.eq_of_toNat_eq (bit.trans ?_))
    change _ = 0
    omega

theorem cast_signed (b : Bool) (n : ℕ) :
    signed b n = (if b = true then Sign.negative else .positive).apply n := by
  cases b <;> rfl

/-- The value is the one that is read off the bits. -/
theorem value_of_exact {x : Float} {negative : Bool} {m : ℕ} {e : ℤ}
    (h : exact x = .finite negative m e) :
    x.isFinite = true ∧ value x = signed negative m * 2 ^ e := by
  have hexponent := toNat_unpackExponent x.toModel
  have hmantissa := toNat_unpackMantissa x.toModel
  have hsign := ofBitVec_unpackSign x.toModel
  change x.toModel.unpack.isFinite = true ∧ valueOf x.toModel.unpack = _
  unfold Float.Model.unpack UnpackedFloat.unpack
  extract_lets mantissa exponent place sign s
  change exponent.toNat = _ at hexponent
  change mantissa.toNat = _ at hmantissa
  change s = _ at hsign
  simp only [exact] at h
  split at h
  · split at h <;> cases h
  · rename_i field
    rw [if_neg (fun h0 => field (hexponent.symm.trans (congrArg BitVec.toNat h0)))]
    split at h
    · rename_i least
      have zero : exponent = 0 := BitVec.eq_of_toNat_eq (hexponent.trans least)
      rw [if_pos (by exact zero)]
      cases h
      split
      · rename_i empty
        have fraction : x.toBits.toNat % twoTo 52 = 0 :=
          hmantissa.symm.trans (congrArg BitVec.toNat empty)
        rw [fraction, valueOf_zero]
        exact ⟨rfl, by cases (x.toBits.toNat / twoTo 63 == 1) <;> simp [signed]⟩
      · have fraction : mantissa.toNat = x.toBits.toNat % twoTo 52 := hmantissa
        have hp : place + 1 = -1074 := by simp only [place, zero]; rfl
        refine ⟨rfl, ?_⟩
        rw [valueOf, cast_signed, fraction, hp, hsign]
        rfl
    · rename_i higher
      rw [if_neg (fun h0 => higher (hexponent.symm.trans (congrArg BitVec.toNat h0)))]
      cases h
      have fraction : mantissa.toNat = x.toBits.toNat % twoTo 52 := hmantissa
      have hp : place = (x.toBits.toNat / twoTo 52 % twoTo 11 : ℕ) - 1075 := by
        simp only [place, hexponent]
        rfl
      refine ⟨rfl, ?_⟩
      rw [valueOf, toNat_one_append, cast_signed, fraction, hp, hsign]
      rfl

theorem cast_twoTo (k : ℕ) : ((twoTo k : ℕ) : ℚ) = 2 ^ k :=
  Nat.cast_pow 2 k

/-- A number that is read as a whole one has that value. -/
theorem value_of_whole? {x : Float} {n : ℤ} (h : whole? x = some n) :
    x.isFinite = true ∧ value x = n := by
  have cast (b : Bool) (k : ℕ) : (signed b k : ℚ) = signed b 1 * k := by
    cases b <;> simp [signed]
  unfold whole? at h
  split at h
  · rename_i b m e hx
    obtain ⟨finite, hv⟩ := value_of_exact hx
    refine ⟨finite, hv.trans ?_⟩
    split at h
    · rename_i high
      obtain ⟨k, rfl⟩ := Int.eq_ofNat_of_zero_le high
      cases h
      rw [cast b m, cast b (m * _), Nat.cast_mul, cast_twoTo, Int.toNat_natCast, zpow_natCast,
        mul_assoc]
    · rename_i low
      obtain ⟨k, rfl⟩ : ∃ k : ℕ, e = -k := ⟨(-e).toNat, by omega⟩
      simp only [neg_neg, Int.toNat_natCast] at h
      split at h
      · rename_i divides
        cases h
        have whole : (m : ℚ) = (m / twoTo k : ℕ) * 2 ^ k := by
          rw [← cast_twoTo, ← Nat.cast_mul, Nat.div_mul_cancel (Nat.dvd_of_mod_eq_zero divides)]
        rw [cast b m, cast b (m / _), whole, zpow_neg, zpow_natCast, mul_assoc, mul_assoc,
          mul_inv_cancel₀ (by positivity), mul_one]
      · cases h
  · cases h

/-- Finite numbers are read off their bits as such. -/
theorem exists_exact_of_isFinite {x : Float} (h : x.isFinite = true) :
    ∃ negative m e, exact x = .finite negative m e := by
  simp only [exact]
  split
  · rename_i field
    change x.toModel.unpack.isFinite = true at h
    unfold Float.Model.unpack UnpackedFloat.unpack at h
    extract_lets mantissa exponent at h
    have greatest : exponent = -1 :=
      BitVec.eq_of_toNat_eq ((toNat_unpackExponent x.toModel).trans field)
    rw [if_pos (by exact greatest)] at h
    split at h <;> cases h
  · split
    · exact ⟨_, _, _, rfl⟩
    · exact ⟨_, _, _, rfl⟩

/-- What has a whole value is read as a whole number. -/
theorem whole?_of_value_eq {x : Float} {n : ℤ} (finite : x.isFinite = true) (hv : value x = n) :
    whole? x = some n := by
  obtain ⟨b, m, e, hx⟩ := exists_exact_of_isFinite finite
  obtain ⟨n', hn'⟩ : ∃ n', whole? x = some n' := by
    simp only [whole?, hx]
    split
    · exact ⟨_, rfl⟩
    · rename_i low
      obtain ⟨k, rfl⟩ : ∃ k : ℕ, e = -k := ⟨(-e).toNat, by omega⟩
      have scaled : signed b m = n * twoTo k := by
        have read := (value_of_exact hx).2.symm.trans hv
        rw [zpow_neg, zpow_natCast, mul_inv_eq_iff_eq_mul₀ (by positivity), ← cast_twoTo] at read
        exact_mod_cast read
      have divides : twoTo k ∣ m := by
        have multiple : (twoTo k : ℤ) ∣ signed b m := ⟨n, by rw [scaled, mul_comm]⟩
        cases b
        · exact Int.natCast_dvd_natCast.1 multiple
        · exact Int.natCast_dvd_natCast.1 (Int.dvd_neg.1 multiple)
      rw [neg_neg, Int.toNat_natCast, if_pos (Nat.mod_eq_zero_of_dvd divides)]
      exact ⟨_, rfl⟩
  have same := (value_of_whole? hn').2.symm.trans hv
  rw [hn', Int.cast_injective same]

theorem whole?_eq_some_iff {x : Float} {n : ℤ} :
    whole? x = some n ↔ x.isFinite = true ∧ value x = n :=
  ⟨value_of_whole?, fun h => whole?_of_value_eq h.1 h.2⟩

/-! ## Order -/

/-- A higher place outweighs all digits. -/
theorem mul_zpow_lt_mul_zpow {s s' : Sign} {m m' : ℕ} {e e' : ℤ} {h : 0 < m} {h' : 0 < m'}
    (hc : Canonical (.finite s m e h)) (hc' : Canonical (.finite s' m' e' h'))
    (lt : e < e' ∨ e = e' ∧ m < m') : (m : ℚ) * 2 ^ e < m' * 2 ^ e' := by
  rcases lt with place | ⟨rfl, digits⟩
  · have least := hc.2.1
    have small : (m : ℚ) < 2 ^ 53 := by exact_mod_cast hc.1
    have full : (2 : ℚ) ^ 52 ≤ m' := by exact_mod_cast hc'.2.2.resolve_right (by omega)
    calc
      (m : ℚ) * 2 ^ e < 2 ^ 53 * 2 ^ e := mul_lt_mul_of_pos_right small (by positivity)
      _ = 2 ^ 52 * 2 ^ (e + 1) := by
        rw [zpow_add_one₀ two_ne_zero]
        ring
      _ ≤ m' * 2 ^ e' := by
        refine mul_le_mul full (zpow_le_zpow_right₀ one_le_two place) ?_ ?_
        · positivity
        · positivity
  · exact mul_lt_mul_of_pos_right (by exact_mod_cast digits) (by positivity)

theorem valueOf_negative (m : ℕ) (e : ℤ) (h : 0 < m) :
    valueOf (.finite .negative m e h) = -(m * 2 ^ e) := by
  rw [valueOf, Sign.apply, Int.cast_neg, Int.cast_natCast, neg_mul]

theorem valueOf_positive (m : ℕ) (e : ℤ) (h : 0 < m) :
    valueOf (.finite .positive m e h) = m * 2 ^ e := by
  rw [valueOf, Sign.apply, Int.cast_natCast]

theorem valueOf_lt_of_rankOf_lt {a b : UnpackedFloat} (ha : Canonical a) (hb : Canonical b)
    (fa : a.isFinite = true) (fb : b.isFinite = true) (h : rankOf a < rankOf b) :
    valueOf a < valueOf b := by
  rcases a with _ | _ | _ | ⟨_ | _, m, e, hm⟩ <;> simp [UnpackedFloat.isFinite] at fa <;>
    rcases b with _ | _ | _ | ⟨_ | _, m', e', hm'⟩ <;> simp [UnpackedFloat.isFinite] at fb <;>
    simp [rankOf, Prod.Lex.toLex_lt_toLex] at h <;>
    simp only [valueOf_negative, valueOf_positive]
  · change (0 : ℚ) < _
    positivity
  · change _ < (0 : ℚ)
    rw [neg_lt_zero]
    positivity
  · exact neg_lt_neg (mul_zpow_lt_mul_zpow hb ha (h.imp_right (And.imp_left Eq.symm)))
  · have below : (0 : ℚ) < m * 2 ^ e := by positivity
    have above : (0 : ℚ) < m' * 2 ^ e' := by positivity
    linarith
  · exact mul_zpow_lt_mul_zpow ha hb h

theorem valueOf_eq_of_rankOf_eq {a b : UnpackedFloat} (fa : a.isFinite = true)
    (fb : b.isFinite = true) (h : rankOf a = rankOf b) : valueOf a = valueOf b := by
  rcases a with _ | _ | _ | ⟨_ | _, m, e, hm⟩ <;> simp [UnpackedFloat.isFinite] at fa <;>
    rcases b with _ | _ | _ | ⟨_ | _, m', e', hm'⟩ <;> simp [UnpackedFloat.isFinite] at fb <;>
    simp [rankOf] at h
  · rfl
  · simp only [h, valueOf_negative]
  · simp only [h, valueOf_positive]

theorem isNaN_of_isFinite {x : Float} (h : x.isFinite = true) : x.isNaN = false := by
  change x.toModel.unpack.isFinite = true at h
  change x.toModel.unpack.isNaN = false
  cases hu : x.toModel.unpack with
  | notANumber =>
    rw [hu] at h
    cases h
  | _ => rfl

/-- Finite numbers have the order of their values. -/
theorem rank_lt_rank_iff {x y : Float} (hx : x.isFinite = true) (hy : y.isFinite = true) :
    rank x < rank y ↔ value x < value y := by
  have forward {x y : Float} (hx : x.isFinite = true) (hy : y.isFinite = true)
      (h : rank x < rank y) : value x < value y :=
    valueOf_lt_of_rankOf_lt (canonical_unpack _) (canonical_unpack _) hx hy h
  refine ⟨forward hx hy, fun h => ?_⟩
  rcases lt_trichotomy (rank x) (rank y) with lt | eq | gt
  · exact lt
  · exact absurd (valueOf_eq_of_rankOf_eq hx hy eq) h.ne
  · exact absurd (forward hy hx gt) h.asymm

theorem lt_iff_value_lt {x y : Float} (hx : x.isFinite = true) (hy : y.isFinite = true) :
    x < y ↔ value x < value y := by
  rw [lt_iff_rank_lt (isNaN_of_isFinite hx) (isNaN_of_isFinite hy), rank_lt_rank_iff hx hy]

theorem le_iff_value_le {x y : Float} (hx : x.isFinite = true) (hy : y.isFinite = true) :
    x ≤ y ↔ value x ≤ value y := by
  rw [le_iff_rank_le (isNaN_of_isFinite hx) (isNaN_of_isFinite hy), ← not_lt, ← not_lt,
    rank_lt_rank_iff hy hx]

theorem IsZero.unique {s : Sign} {x y : Float} (hx : IsZero s x) (hy : IsZero s y) : x = y := by
  have bits := (isZero_iff.1 hx).trans (isZero_iff.1 hy).symm
  rw [← Float.toBits_inj]
  exact UInt64.toBitVec_inj.1 bits

/-- A number is known by its value if it is not a negative zero. -/
theorem eq_of_value_eq {x y : Float} (hx : x.isFinite = true) (hy : y.isFinite = true)
    (zx : ¬ IsZero .negative x) (zy : ¬ IsZero .negative y) (h : value x = value y) : x = y := by
  have rank : rank x = rank y := by
    rcases lt_trichotomy (rank x) (rank y) with lt | eq | gt
    · exact absurd ((rank_lt_rank_iff hx hy).1 lt) h.not_lt
    · exact eq
    · exact absurd ((rank_lt_rank_iff hy hx).1 gt) h.not_gt
  rcases (alike_iff_rank_eq (isNaN_of_isFinite hx) (isNaN_of_isFinite hy)).2 rank with
    same | ⟨_ | _, _ | _, zx', zy'⟩
  · exact same
  · exact absurd zx' zx
  · exact absurd zx' zx
  · exact absurd zy' zy
  · exact zx'.unique zy'

end Worklog.Decimal
