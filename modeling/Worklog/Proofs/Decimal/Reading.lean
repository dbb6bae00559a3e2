import Worklog.Decimal.Binary
import Worklog.Decimal.Numeral
import Worklog.Proofs.Decimal.Positive

/-!
# What is read is a number

A decimal that is read may be too large for the format and become infinite, but it is never NaN
(`isNaN_of_real?`): it is the product or the quotient of two finite numbers, and those are numbers
(`isNumber_mul`, `isNumber_div`). So it has an exact value to compare with (`exact_ne_nan`).
-/

namespace Worklog.Decimal

open Float.Model UnpackedFloat

/-! ## Numbers and their results -/

/-- Whether a value of the format is a number. -/
def IsNumber (a : UnpackedFloat) : Prop :=
  Fits a ∧ a.isNaN = false

/-- Whether a number is finite and not zero. -/
def isProper : UnpackedFloat → Bool
  | .finite .. => true
  | _ => false

theorem isNumber_roundWithAccuracy (s : Sign) (m : Nat) (e : Int) (a : Accuracy) :
    IsNumber (roundWithAccuracy .binary64 s m e a) := by
  obtain h | ⟨m', e', hm, h, fits⟩ := roundWithAccuracy_cases s m e a
  · rw [h]
    exact ⟨trivial, rfl⟩
  · rw [h]
    exact ⟨fits, rfl⟩

theorem isNumber_mul {a b : UnpackedFloat} (ha : a.isNaN = false) (hb : isProper b = true) :
    IsNumber (UnpackedFloat.mul .binary64 a b) := by
  rcases b with _ | _ | _ | ⟨s, m, e, hm⟩
  · cases hb
  · cases hb
  · cases hb
  · rcases a with _ | _ | _ | ⟨s', m', e', hm'⟩
    · exact ⟨trivial, rfl⟩
    · cases ha
    · exact ⟨trivial, rfl⟩
    · exact isNumber_roundWithAccuracy ..

theorem isNumber_div {a b : UnpackedFloat} (ha : a.isNaN = false) (hb : isProper b = true) :
    IsNumber (UnpackedFloat.div .binary64 a b) := by
  rcases b with _ | _ | _ | ⟨s, m, e, hm⟩
  · cases hb
  · cases hb
  · cases hb
  · rcases a with _ | _ | _ | ⟨s', m', e', hm'⟩
    · exact ⟨trivial, rfl⟩
    · cases ha
    · exact ⟨trivial, rfl⟩
    · exact isNumber_roundWithAccuracy ..

theorem isNumber_ofInt (n : Int) : IsNumber (UnpackedFloat.ofInt .binary64 n) := by
  unfold UnpackedFloat.ofInt UnpackedFloat.normalize
  split
  · exact isNumber_roundWithAccuracy ..
  · exact ⟨trivial, rfl⟩
  · exact isNumber_roundWithAccuracy ..

theorem isNumber_ofScientific (m : Nat) (e : Int) :
    IsNumber (UnpackedFloat.ofScientific .binary64 m e) := by
  unfold UnpackedFloat.ofScientific
  split
  · exact ⟨trivial, rfl⟩
  · split
    · exact ⟨trivial, rfl⟩
    · split
      · exact ⟨trivial, rfl⟩
      · split
        · exact isNumber_mul rfl rfl
        · exact isNumber_div rfl rfl

theorem isNumber_neg {a : UnpackedFloat} (h : IsNumber a) : IsNumber a.neg := by
  rcases a with _ | _ | _ | _
  · exact ⟨trivial, rfl⟩
  · exact h
  · exact ⟨trivial, rfl⟩
  · exact ⟨h.1, rfl⟩

/-- A number is stored as one. -/
theorem isNaN_unpack_pack {a : UnpackedFloat} (h : IsNumber a) :
    (Float.Model.pack a).unpack.isNaN = false := by
  obtain ⟨fits, h⟩ := h
  rcases a with s | _ | s | ⟨s, m, e, hm⟩
  · exact congrArg UnpackedFloat.isNaN (unpack_packedInfinity s)
  · cases h
  · exact congrArg UnpackedFloat.isNaN unpack_packedZero
  · obtain stored | ⟨_, _, _, stored⟩ := unpack_pack_finite fits
    · exact congrArg UnpackedFloat.isNaN stored
    · exact congrArg UnpackedFloat.isNaN stored

/-! ## Decimals -/

theorem isProper_powerOfTen : ∀ e (h : e < Float.exactlyRepresentablePowersOfTen.size),
    isProper Float.exactlyRepresentablePowersOfTen[e].toModel.unpack = true := by
  decide +kernel

theorem isNaN_ofScientific (m : Nat) (s : Bool) (e : Nat) :
    (Float.ofScientific m s e).isNaN = false := by
  have whole : m.toUInt64.toFloat.isNaN = false := isNaN_unpack_pack (isNumber_ofInt _)
  unfold Float.ofScientific
  split
  · rename_i small
    have power := isProper_powerOfTen e (Nat.lt_succ_of_le small.2)
    split
    · exact isNaN_unpack_pack (isNumber_div whole power)
    · exact isNaN_unpack_pack (isNumber_mul whole power)
  · exact isNaN_unpack_pack (isNumber_ofScientific ..)

theorem isNaN_nearest (m : Nat) (e : Int) : (nearest m e).isNaN = false := by
  simp only [nearest]
  split
  · decide +kernel
  · split
    · decide +kernel
    · exact isNaN_ofScientific ..

theorem isNaN_nearestSigned (negative : Bool) (m : Nat) (e : Int) :
    (nearestSigned negative m e).isNaN = false := by
  have number := isNaN_nearest m e
  unfold nearestSigned
  split
  · exact isNaN_unpack_pack (isNumber_neg ⟨fits_unpack _, number⟩)
  · exact number

theorem isNaN_of_real? {raw : String} {x : Float} (h : Numeral.real? raw = some x) :
    x.isNaN = false := by
  obtain ⟨w, -, rfl⟩ := Option.map_eq_some_iff.1 h
  exact isNaN_nearestSigned ..

/-! ## Exact values -/

theorem toNat_unpackExponent (x : Float.Model) :
    (@unpackExponent .binary64 x.toBits.toBitVec).toNat = x.toBits.toNat / 2 ^ 52 % 2 ^ 11 := by
  rw [unpackExponent, BitVec.toNat_cast, BitVec.extractLsb_toNat, Nat.shiftRight_eq_div_pow]
  rfl

theorem toNat_unpackMantissa (x : Float.Model) :
    (@unpackMantissa .binary64 x.toBits.toBitVec).toNat = x.toBits.toNat % 2 ^ 52 := by
  rw [unpackMantissa, BitVec.toNat_cast, BitVec.extractLsb_toNat, Nat.shiftRight_zero]
  rfl

theorem exact_ne_nan {x : Float} (h : x.isNaN = false) : exact x ≠ .nan := by
  intro hx
  simp only [exact] at hx
  split at hx
  · rename_i field
    split at hx
    · cases hx
    · rename_i fraction
      have unpacked : x.toModel.unpack = .notANumber := by
        unfold Float.Model.unpack UnpackedFloat.unpack
        extract_lets mantissa exponent
        have greatest : exponent = -1 :=
          BitVec.eq_of_toNat_eq ((toNat_unpackExponent x.toModel).trans field)
        have other : mantissa ≠ 0 := fun h0 =>
          fraction ((toNat_unpackMantissa x.toModel).symm.trans (congrArg BitVec.toNat h0))
        rw [if_pos (by exact greatest), if_neg (by exact other)]
      change x.toModel.unpack.isNaN = false at h
      rw [unpacked] at h
      cases h
  · split at hx
    · cases hx
    · cases hx

end Worklog.Decimal
