import Worklog.Proofs.Decimal.Conversion
import Worklog.Proofs.Decimal.Numeral

/-!
# The exact value of a numeral

Digits write a number exactly, with a point between them or without (`exact`). Without a point that
is the integer they are read as (`exists_integer`); with one they are read as the binary64 number
nearest to it (`exists_real?`).
-/

namespace Worklog.Decimal.Numeral

open Text (isDigit asciiDigit digitValue?)

/-- The number that digits write, with a point between them or without. -/
def exact (cs : List Char) : ℚ :=
  let whole := cs.takeWhile (· != '.')
  let fraction := (cs.dropWhile (· != '.')).tail
  Text.number whole + Text.number fraction / 10 ^ fraction.length

/-! ## What digits write -/

theorem number_append (cs ds : List Char) :
    Text.number (cs ++ ds) = Text.number cs * 10 ^ ds.length + Text.number ds := by
  induction ds using List.reverseRecOn with
  | nil => simp [Text.number]
  | append_singleton ds d ih =>
    have last (es : List Char) :
        Text.number (es ++ [d]) = 10 * Text.number es + (digitValue? d).getD 0 := by
      simp only [Text.number, List.foldl_append, List.foldl_cons, List.foldl_nil]
    rw [← List.append_assoc, last, ih, last, List.length_append, List.length_singleton]
    ring

theorem digitValue?_asciiDigit {c : Char} (h : isDigit c = true) :
    (asciiDigit c).toNat - '0'.toNat = (digitValue? c).getD 0 := by
  obtain ⟨d, hd⟩ := Option.isSome_iff_exists.1 h
  have all : ∀ d < 10, (Char.ofNat (0x30 + d)).toNat - '0'.toNat = d := by decide
  simp only [asciiDigit, hd, Option.getD_some]
  exact all d (digitValue?_lt hd)

theorem ofDigits_asciiDigit {cs : List Char} (h : ∀ c ∈ cs, isDigit c = true) :
    ofDigits (cs.map asciiDigit) = Text.number cs := by
  rw [ofDigits, Text.number, List.foldl_map]
  refine List.foldl_ext _ _ 0 fun n c hc => ?_
  rw [digitValue?_asciiDigit (h c hc)]

theorem ne_point_of_isDigit {cs : List Char} (h : ∀ c ∈ cs, isDigit c = true) :
    ∀ c ∈ cs, (c != '.') = true := by
  intro c hc
  rw [bne_iff_ne]
  rintro rfl
  exact point_not_mem h hc

theorem exact_of_digits {cs : List Char} (h : ∀ c ∈ cs, isDigit c = true) :
    exact cs = Text.number cs := by
  have solid := ne_point_of_isDigit h
  simp [exact, List.takeWhile_eq_self_iff.2 solid, List.dropWhile_eq_nil_iff.2 solid, Text.number]

theorem exact_of_point {whole : List Char} (hw : ∀ c ∈ whole, isDigit c = true)
    (fraction : List Char) :
    exact (whole ++ '.' :: fraction) =
      Text.number (whole ++ fraction) * 10 ^ (-fraction.length : ℤ) := by
  have solid := ne_point_of_isDigit hw
  have taken : (whole ++ '.' :: fraction).takeWhile (· != '.') = whole := by
    simp [List.takeWhile_append_of_pos solid]
  have dropped : (whole ++ '.' :: fraction).dropWhile (· != '.') = '.' :: fraction := by
    simp [List.dropWhile_append_of_pos solid]
  simp only [exact, taken, dropped, List.tail_cons]
  rw [number_append, zpow_neg, zpow_natCast]
  push_cast
  field_simp

/-! ## What digits are read as -/

theorem exists_integer {cs : List Char} (hne : cs ≠ []) (h : ∀ c ∈ cs, isDigit c = true)
    (short : ¬ digitLimit < cs.length) :
    ∃ n : ℕ, integer (String.ofList cs) = .ok n ∧ exact cs = n :=
  ⟨Text.number cs, by rw [integer_of_digits hne h, if_neg short, ofDigits_asciiDigit h],
    exact_of_digits h⟩

theorem exists_real? {whole fraction : List Char} (hne : whole ≠ [])
    (hw : ∀ c ∈ whole, isDigit c = true) (hf : ∀ c ∈ fraction, isDigit c = true) :
    ∃ x, real? (String.ofList (whole ++ '.' :: fraction)) = some x ∧
      IsRounded x (exact (whole ++ '.' :: fraction)) := by
  have digits : ∀ c ∈ whole ++ fraction, isDigit c = true := List.forall_mem_append.2 ⟨hw, hf⟩
  refine ⟨_, real?_of_digits hne hw hf, ?_⟩
  rw [ofDigits_asciiDigit digits, exact_of_point hw]
  exact isRounded_nearest _ _

end Worklog.Decimal.Numeral
