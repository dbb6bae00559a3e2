import Mathlib.Data.List.TakeWhile
import Worklog.Decimal.Numeral

/-!
# Numerals that can be read

A numeral of plain digits, be they of any script, is read as an integer unless there are too many of
them (`integer_of_digits`), and one with a point between its digits is always read as a real number
(`real?_of_digits`). In both, every digit counts as the ASCII digit of its value, and nothing around
the digits is stripped, because no digit is blank (`isBlank_of_isDigit`).
-/

namespace Worklog.Decimal.Numeral

open Text (isDigit isBlank isPadding asciiDigit digitValue? digitZeros blankRanges)

/-! ## Digits -/

theorem digitValue?_lt {c : Char} {d : Nat} (h : digitValue? c = some d) : d < 10 := by
  unfold digitValue? at h
  split at h
  · split at h
    · cases h
      omega
    · cases h
  · obtain ⟨z, hz, rfl⟩ := Option.map_eq_some_iff.1 h
    have range := List.find?_some hz
    simp only [Bool.and_eq_true, decide_eq_true_eq] at range
    omega

theorem isDigit_asciiDigit {c : Char} (h : isDigit c = true) :
    (asciiDigit c).isDigit = true := by
  obtain ⟨d, hd⟩ := Option.isSome_iff_exists.1 h
  have all : ∀ d < 10, (Char.ofNat (0x30 + d)).isDigit = true := by decide
  simp only [asciiDigit, hd]
  exact all d (digitValue?_lt hd)

theorem point_not_mem {cs : List Char} (h : ∀ c ∈ cs, isDigit c = true) : '.' ∉ cs := by
  intro hp
  have point := h '.' hp
  revert point
  decide

/-- The digits of every script lie apart from all blank characters. -/
theorem zeros_apart : ∀ z ∈ digitZeros, 0x80 ≤ z ∧ ∀ r ∈ blankRanges, z + 9 < r.1 ∨ r.2 < z := by
  decide

theorem isBlank_of_isDigit {c : Char} (h : isDigit c = true) : isBlank c = false := by
  unfold isDigit digitValue? at h
  unfold isBlank
  split at h
  · rename_i hc
    rw [if_pos hc]
    split at h
    · have notLow : ¬ c.toNat ≤ 0x0D := by omega
      have notSpace : ¬ c.toNat ≤ 0x20 := by omega
      simp [notLow, notSpace]
    · cases h
  · rename_i hc
    rw [if_neg hc]
    rw [Option.isSome_map, List.find?_isSome] at h
    obtain ⟨z, hz, range⟩ := h
    simp only [Bool.and_eq_true, decide_eq_true_eq] at range
    rw [Text.inRanges, List.any_eq_false]
    intro r hr
    have apart := (zeros_apart z hz).2 r hr
    simp only [Bool.and_eq_true, decide_eq_true_eq]
    omega

/-! ## Plain numerals -/

theorem dropWhile_eq_self {p : Char → Bool} {cs : List Char} (h : ∀ c ∈ cs, p c = false) :
    cs.dropWhile p = cs := by
  cases cs with
  | nil => rfl
  | cons c cs => rw [List.dropWhile_cons_of_neg (by simp [h c (List.mem_cons_self ..)])]

theorem unpad_eq_self {cs : List Char} (h : ∀ c ∈ cs, isPadding c = false) :
    Text.unpad cs = cs := by
  have reversed : ∀ c ∈ cs.reverse, isPadding c = false := fun c hc => h c (List.mem_reverse.1 hc)
  rw [Text.unpad, Text.stripOf, dropWhile_eq_self h, dropWhile_eq_self reversed,
    List.reverse_reverse]

/-- A text of digits and points keeps its length, and the points their places. -/
theorem plain_ofList {cs : List Char} (h : ∀ c ∈ cs, isDigit c = true ∨ c = '.') :
    plain (String.ofList cs) = cs.map asciiDigit := by
  rw [plain, String.toList_ofList, unpad_eq_self]
  intro c hc
  rcases h c hc with hd | rfl
  · rw [isPadding, isBlank_of_isDigit hd, Bool.false_and]
  · decide

theorem joined?_eq_self {cs : List Char} (h : '_' ∉ cs) : joined? cs = some cs := by
  fun_induction joined? cs with
  | case1 => rfl
  | case2 => simp at h
  | case3 => simp at h
  | case4 => simp at h
  | case5 c cs _ _ ih =>
    rw [ih fun hc => h (List.mem_cons_of_mem c hc)]
    rfl

theorem takeSign_of_isDigit {c : Char} (h : c.isDigit = true) (cs : List Char) :
    takeSign (c :: cs) = (false, c :: cs) := by
  unfold takeSign
  split
  · rename_i hc
    cases hc
    cases h
  · rename_i hc
    cases hc
    cases h
  · rfl

theorem not_mem_of_isDigit {ds : List Char} (h : ∀ d ∈ ds, d.isDigit = true) {c : Char}
    (hc : c.isDigit = false) : c ∉ ds := by
  intro hm
  rw [h c hm] at hc
  cases hc

theorem map_asciiDigit {cs : List Char} (h : ∀ c ∈ cs, isDigit c = true) :
    ∀ d ∈ cs.map asciiDigit, d.isDigit = true := by
  intro d hd
  obtain ⟨c, hc, rfl⟩ := List.mem_map.1 hd
  exact isDigit_asciiDigit (h c hc)

theorem integer_of_plain {raw : String} {ds : List Char} (hp : plain raw = ds) (hne : ds ≠ [])
    (h : ∀ d ∈ ds, d.isDigit = true) :
    integer raw =
      if digitLimit < ds.length then .error (.tooLong ds.length) else .ok (ofDigits ds) := by
  obtain ⟨d, rest, rfl⟩ := List.exists_cons_of_ne_nil hne
  have inNumber : ∀ c ∈ d :: rest, (c.isDigit || c == '_') = true := by
    intro c hc
    rw [h c hc, Bool.true_or]
  have taken := List.takeWhile_eq_self_iff.2 inNumber
  have dropped := List.dropWhile_eq_nil_iff.2 inNumber
  simp only [integer, hp, takeSign_of_isDigit (h d (List.mem_cons_self ..)), taken, dropped,
    joined?_eq_self (not_mem_of_isDigit h rfl), List.isEmpty_nil, if_true]
  rfl

/-- Digits are read as an integer, unless there are more of them than may be read. -/
theorem integer_of_digits {cs : List Char} (hne : cs ≠ []) (h : ∀ c ∈ cs, isDigit c = true) :
    integer (String.ofList cs) =
      if digitLimit < cs.length then .error (.tooLong cs.length)
      else .ok (ofDigits (cs.map asciiDigit)) := by
  have hp := plain_ofList fun c hc => .inl (h c hc)
  rw [integer_of_plain hp (by simpa using hne) (map_asciiDigit h), List.length_map]

theorem readWritten?_of_digits {whole fraction : List Char} (hne : whole ≠ [])
    (hw : ∀ d ∈ whole, d.isDigit = true) (hf : ∀ d ∈ fraction, d.isDigit = true) :
    readWritten? (whole ++ '.' :: fraction) = some ⟨false, whole, some fraction, none⟩ := by
  obtain ⟨d, rest, rfl⟩ := List.exists_cons_of_ne_nil hne
  have point : ('.' : Char).isDigit = false := rfl
  have taken : (d :: rest ++ '.' :: fraction).takeWhile Char.isDigit = d :: rest := by
    rw [List.takeWhile_append_of_pos hw, List.takeWhile_cons_of_neg (by simp [point]),
      List.append_nil]
  have dropped : (d :: rest ++ '.' :: fraction).dropWhile Char.isDigit = '.' :: fraction := by
    rw [List.dropWhile_append_of_pos hw, List.dropWhile_cons_of_neg (by simp [point])]
  have sign : takeSign (d :: rest ++ '.' :: fraction) = (false, d :: rest ++ '.' :: fraction) :=
    takeSign_of_isDigit (hw d (List.mem_cons_self ..)) _
  simp only [readWritten?, sign, taken, dropped, List.head?_cons, if_true, List.tail_cons,
    List.takeWhile_eq_self_iff.2 hf, List.dropWhile_eq_nil_iff.2 hf, List.isEmpty_cons,
    Bool.false_and, Bool.false_eq_true, if_false]

/-- Digits with a point between them are read as the real number nearest to the decimal. -/
theorem real?_of_digits {whole fraction : List Char} (hne : whole ≠ [])
    (hw : ∀ c ∈ whole, isDigit c = true) (hf : ∀ c ∈ fraction, isDigit c = true) :
    real? (String.ofList (whole ++ '.' :: fraction)) =
      some (nearest (ofDigits ((whole ++ fraction).map asciiDigit)) (-fraction.length)) := by
  have hp : plain (String.ofList (whole ++ '.' :: fraction)) =
      whole.map asciiDigit ++ '.' :: fraction.map asciiDigit := by
    rw [plain_ofList, List.map_append, List.map_cons]
    · rfl
    · rw [List.forall_mem_append, List.forall_mem_cons]
      exact ⟨fun c hc => .inl (hw c hc), .inr rfl, fun c hc => .inl (hf c hc)⟩
  have joined : joined? (whole.map asciiDigit ++ '.' :: fraction.map asciiDigit) =
      some (whole.map asciiDigit ++ '.' :: fraction.map asciiDigit) := by
    refine joined?_eq_self ?_
    rw [List.mem_append, List.mem_cons, not_or, not_or]
    exact ⟨not_mem_of_isDigit (map_asciiDigit hw) rfl, by decide,
      not_mem_of_isDigit (map_asciiDigit hf) rfl⟩
  have read := readWritten?_of_digits (by simpa using hne) (map_asciiDigit hw) (map_asciiDigit hf)
  rw [real?, hp, joined, Option.bind_some, read, Option.map_some, List.map_append]
  simp only [Written.value, nearestSigned, Option.getD_some, Option.getD_none, List.length_map,
    Int.zero_sub, Bool.false_eq_true, if_false]

end Worklog.Decimal.Numeral
