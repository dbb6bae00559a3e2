import Mathlib

/-!
# Rounding to binary64

A number that is not zero stays so when it is rounded, as long as its leading digit does not stand
below the least place (`exists_roundWithAccuracy`): rounding drops no more digits than leave all
that the format has room for. So a sum is never rounded to zero (`fits_add`). What is not zero
then is not lost when it is stored either (`unpack_pack_finite`).
-/

namespace Worklog.Decimal

open Float.Model UnpackedFloat

/-- Whether a number has no more digits, and none of a lower place, than the format has room for. -/
def Fits : UnpackedFloat → Prop
  | .finite _ m e _ => m < 2 ^ 53 ∧ -1074 ≤ e
  | _ => True

/-! ## Rounding -/

theorem mantissa_shiftRight (em : ExtendedMantissa) (k : Nat) :
    (em >>> k).mantissa = em.mantissa / 2 ^ k := by
  induction k with
  | zero => simp [HShiftRight.hShiftRight, Nat.repeat]
  | succ k ih =>
    change (em >>> k).mantissa / 2 = _
    rw [ih, Nat.div_div_eq_div_mul, Nat.pow_succ]

theorem mantissa_ofMantissaAndAccuracy (m : Nat) (a : Accuracy) :
    (ExtendedMantissa.ofMantissaAndAccuracy m a).mantissa = m := by
  rcases a with _ | ⟨_ | _ | _⟩ <;> rfl

theorem mantissa_le_roundedMantissa (em : ExtendedMantissa) :
    em.mantissa ≤ em.roundedMantissa := by
  rcases em with ⟨m, _ | _, _ | _⟩
  · exact le_refl m
  · exact le_refl m
  · exact Nat.le_add_right m _
  · exact Nat.le_succ m

theorem targetExponent_totalExponent (m : Nat) (e : Int) :
    Format.binary64.targetExponent (totalExponent m e) = max (m.log2 + e - 52) (-1074) := by
  simp only [Format.targetExponent, totalExponent, Format.mantissaBits, Format.minExponent]
  norm_num
  omega

/-- A shift leaves no more digits than the format has room for. -/
theorem shift_fits (m : Nat) (e : Int) (a : Accuracy) :
    (shiftToTargetExponent .binary64 m e a).1.mantissa < 2 ^ 53 ∧
      -1074 ≤ (shiftToTargetExponent .binary64 m e a).2 := by
  have high : m < 2 ^ (m.log2 + 1) := Nat.lt_log2_self
  rw [shiftToTargetExponent, targetExponent_totalExponent, shiftToExponent, mantissa_shiftRight,
    mantissa_ofMantissaAndAccuracy]
  generalize hk : (max (m.log2 + e - 52) (-1074) - e).toNat = k
  refine ⟨?_, by omega⟩
  rw [Nat.div_lt_iff_lt_mul (by positivity), ← Nat.pow_add]
  exact high.trans_le (Nat.pow_le_pow_right (by decide) (by omega))

/-- A shift does not drop the leading digit, unless that stands below the least place. -/
theorem shift_pos {m : Nat} {e : Int} (hm : 0 < m) (he : -1074 ≤ m.log2 + e) (a : Accuracy) :
    0 < (shiftToTargetExponent .binary64 m e a).1.mantissa := by
  have low : 2 ^ m.log2 ≤ m := Nat.log2_self_le hm.ne'
  rw [shiftToTargetExponent, targetExponent_totalExponent, shiftToExponent, mantissa_shiftRight,
    mantissa_ofMantissaAndAccuracy]
  refine Nat.div_pos (le_trans ?_ low) (by positivity)
  exact Nat.pow_le_pow_right (by decide) (by omega)

/-- A rounded number fits; it may have become zero. -/
theorem roundWithAccuracy_cases (s : Sign) (m : Nat) (e : Int) (a : Accuracy) :
    roundWithAccuracy .binary64 s m e a = .zero s ∨
      ∃ m' e' h, roundWithAccuracy .binary64 s m e a = .finite s m' e' h ∧
        Fits (.finite s m' e' h) := by
  simp only [roundWithAccuracy]
  split
  · exact .inl rfl
  · rename_i h
    exact .inr ⟨_, _, Nat.pos_of_ne_zero h, rfl, shift_fits ..⟩

theorem exists_roundWithAccuracy {m : Nat} {e : Int} (hm : 0 < m) (he : -1074 ≤ m.log2 + e)
    (s : Sign) (a : Accuracy) :
    ∃ m' e' h, roundWithAccuracy .binary64 s m e a = .finite s m' e' h ∧
      Fits (.finite s m' e' h) := by
  have rounded := (shift_pos hm he a).trans_le (mantissa_le_roundedMantissa _)
  have least := (shift_fits m e a).2
  -- Rounding may have brought one more digit; the second shift drops it.
  have pos := shift_pos rounded (le_add_of_nonneg_of_le (Int.natCast_nonneg _) least) .exact
  exact ⟨_, _, pos, dif_neg pos.ne', shift_fits ..⟩

/-- What is not zero is rounded to a number that is not zero either. -/
theorem exists_round {m : Nat} {e : Int} (hm : 0 < m) (he : -1074 ≤ e) (s : Sign) :
    ∃ m' e' h, UnpackedFloat.round .binary64 s m e = .finite s m' e' h ∧
      Fits (.finite s m' e' h) := by
  refine exists_roundWithAccuracy ?_ ?_ s .exact
  · rw [Nat.shiftLeft_eq]
    positivity
  · rw [targetExponent_totalExponent]
    omega

/-! ## Sums -/

theorem fits_normalize (m : Int) {e : Int} (he : -1074 ≤ e) :
    Fits (UnpackedFloat.normalize .binary64 m e .positive) ∧
      UnpackedFloat.normalize .binary64 m e .positive ≠ .zero .negative := by
  unfold UnpackedFloat.normalize
  split
  · rename_i h
    have pos : 0 < (-m).toNat := by
      have := Int.compare_eq_lt.1 h
      omega
    obtain ⟨m', e', h', hr, fits⟩ := exists_round pos he .negative
    rw [hr]
    exact ⟨fits, nofun⟩
  · exact ⟨trivial, nofun⟩
  · rename_i h
    have pos : 0 < m.toNat := by
      have := Int.compare_eq_gt.1 h
      omega
    obtain ⟨m', e', h', hr, fits⟩ := exists_round pos he .positive
    rw [hr]
    exact ⟨fits, nofun⟩

/-- A sum is a negative zero only if the first summand is. -/
theorem fits_add {a b : UnpackedFloat} (ha : Fits a) (hb : Fits b) (h : a ≠ .zero .negative) :
    Fits (add .binary64 a b) ∧ add .binary64 a b ≠ .zero .negative := by
  rcases a with sa | _ | ⟨_ | _⟩ | ⟨sa, ma, ea, _⟩
  · rcases b with sb | _ | sb | ⟨sb, mb, eb, _⟩
    · simp only [UnpackedFloat.add]
      split
      · exact ⟨trivial, nofun⟩
      · exact ⟨trivial, nofun⟩
    all_goals exact ⟨trivial, nofun⟩
  · exact ⟨trivial, nofun⟩
  · exact absurd rfl h
  · rcases b with sb | _ | ⟨_ | _⟩ | ⟨sb, mb, eb, _⟩
    · exact ⟨trivial, nofun⟩
    · exact ⟨trivial, nofun⟩
    · exact ⟨trivial, nofun⟩
    · exact ⟨trivial, nofun⟩
    · exact ⟨hb, nofun⟩
  · rcases b with sb | _ | sb | ⟨sb, mb, eb, _⟩
    · exact ⟨trivial, nofun⟩
    · exact ⟨trivial, nofun⟩
    · exact ⟨ha, nofun⟩
    · exact fits_normalize _ (le_min ha.2 hb.2)

/-! ## Storing -/

theorem fits_unpack (x : Float.Model) : Fits x.unpack := by
  unfold Float.Model.unpack UnpackedFloat.unpack
  extract_lets mantissa exponent place sign s
  split
  · split
    · trivial
    · trivial
  · split
    · split
      · trivial
      · refine ⟨mantissa.isLt.trans (by decide), ?_⟩
        simp only [place, Format.exponentBias]
        omega
    · rename_i h
      refine ⟨(1#1 ++ mantissa).isLt, ?_⟩
      have : exponent.toNat ≠ 0 := fun h0 => h (BitVec.eq_of_toNat_eq h0)
      simp only [place, Format.exponentBias]
      omega

theorem unpack_packedInfinity (s : Sign) :
    UnpackedFloat.unpack .binary64 (packedInfinity .binary64 s) = .infinity s := by
  have exponent : unpackExponent (packedInfinity .binary64 s) = -1 := unpackExponent_packComponents
  have mantissa : unpackMantissa (packedInfinity .binary64 s) = 0 := unpackMantissa_packComponents
  have sign : unpackSign (packedInfinity .binary64 s) = s.toBitVec := unpackSign_packComponents ..
  simp only [UnpackedFloat.unpack, exponent, mantissa, sign, Sign.ofBitVec_toBitVec]
  rfl

/-- A pattern with an exponent below the greatest one is a finite number, if it is not a zero. -/
theorem exists_unpack_packComponents {s : Sign} {x : BitVec 11} {y : BitVec 52} (hx : x ≠ -1)
    (h : x ≠ 0 ∨ y ≠ 0) : ∃ m e hm,
      UnpackedFloat.unpack .binary64 (packComponents .binary64 s x y) = .finite s m e hm := by
  unfold UnpackedFloat.unpack
  extract_lets mantissa exponent place sign s'
  have hm : mantissa = y := unpackMantissa_packComponents
  have he : exponent = x := unpackExponent_packComponents
  have hs : s' = s := by simp only [s', sign, unpackSign_packComponents, Sign.ofBitVec_toBitVec]
  rw [hs, if_neg (he ▸ hx)]
  split
  · rename_i h0
    have ne : mantissa ≠ 0 := hm ▸ h.resolve_left fun hx0 => hx0 (he ▸ h0)
    rw [dif_neg (by exact ne)]
    exact ⟨_, _, Nat.pos_of_ne_zero fun h => ne (BitVec.eq_of_toNat_eq h), rfl⟩
  · refine ⟨_, _, ?_, rfl⟩
    rw [BitVec.toNat_append]
    exact Nat.pos_of_ne_zero fun h => absurd (Nat.or_eq_zero_iff.1 h).1 (by decide)

/-- What fits and is not zero is stored as a number of the same sign that is not zero either. -/
theorem unpack_pack_finite {s : Sign} {m : Nat} {e : Int} {hm : 0 < m}
    (fits : Fits (.finite s m e hm)) :
    (Float.Model.pack (.finite s m e hm)).unpack = .infinity s ∨
      ∃ m' e' hm', (Float.Model.pack (.finite s m e hm)).unpack = .finite s m' e' hm' := by
  obtain ⟨small, least⟩ := fits
  have bias : (Format.binary64.exponentBias : Int) = 1023 := rfl
  have bits : Format.binary64.exponentBits = 11 := rfl
  simp only [Float.Model.unpack, Float.Model.pack, UnpackedFloat.pack, bias]
  split_ifs with large full
  · exact .inl (unpack_packedInfinity s)
  · -- With all its digits, the number stands above the least place, which is written as one.
    refine .inr (exists_unpack_packComponents ?_ (.inl ?_))
    all_goals
      intro h
      have exponent := congrArg BitVec.toNat h
      rw [BitVec.toNat_ofNat, Nat.mod_eq_of_lt (by omega)] at exponent
    · change _ = 2047 at exponent
      omega
    · change _ = 0 at exponent
      omega
  · have digits : m.log2 < 53 := (Nat.log2_lt hm.ne').2 small
    have below : m < 2 ^ 52 := (Nat.log2_lt hm.ne').1 (by
      change m.log2 + 1 ≠ 53 at full
      omega)
    refine .inr (exists_unpack_packComponents (by decide) (.inr ?_))
    intro h
    have mantissa := congrArg BitVec.toNat h
    rw [BitVec.toNat_ofNat, Nat.mod_eq_of_lt below] at mantissa
    exact hm.ne' mantissa
/-- What fits is not stored as a negative zero unless it is one. -/
theorem unpack_pack_ne_negZero {a : UnpackedFloat} (ha : Fits a) (h : a ≠ .zero .negative) :
    (Float.Model.pack a).unpack ≠ .zero .negative := by
  intro stored
  have packed : UnpackedFloat.pack .binary64 a = packedZero .binary64 .negative :=
    (unpack_eq_zero_iff_of_valid valid_pack).1 stored
  rcases a with ⟨_ | _⟩ | _ | ⟨_ | _⟩ | ⟨s, m, e, _⟩
  · exact absurd packed (by decide)
  · exact absurd packed (by decide)
  · exact absurd packed (by decide)
  · exact h rfl
  · exact absurd packed (by decide)
  · obtain nonzero | ⟨_, _, _, nonzero⟩ := unpack_pack_finite ha
    · exact absurd (nonzero.symm.trans stored) nofun
    · exact absurd (nonzero.symm.trans stored) nofun

end Worklog.Decimal
