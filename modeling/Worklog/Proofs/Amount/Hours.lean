import Mathlib.Data.List.DropRight
import Worklog.Proofs.Amount.Denoted

/-!
# Hours without needless zeros

Hours are shown as a number with two places, less the zeros at its end and the point if nothing is
left behind it. Zeros in front of the point are never reached, because the point stands between
(`dropEnd_zeros`), and the point goes only with all digits behind it (`dropEnd_point`). So the text
denotes the same number as before, with the same sign, digits and commas in front of the point, and
the two places can be had back from it. Different numbers are therefore shown as different hours
(`hours_shorten_numbers`).
-/

namespace Worklog

open Decimal (value roundEven tenTo front wholeDigits takeSign_front)
open Decimal.Numeral (exact number_append)

/-! ## Dropping from the end -/

theorem dropEnd_eq (c : Char) (cs : List Char) : dropEnd c cs = cs.rdropWhile (· == c) :=
  rfl

theorem dropEnd_eq_self {c : Char} {cs : List Char} (h : cs.getLast? ≠ some c) :
    dropEnd c cs = cs := by
  rw [dropEnd_eq, List.rdropWhile_eq_self_iff]
  intro hne last
  exact h (by rw [List.getLast?_eq_some_getLast hne, beq_iff_eq.1 last])

theorem getLast?_dropEnd (c : Char) (cs : List Char) : (dropEnd c cs).getLast? ≠ some c := by
  intro h
  have hne : dropEnd c cs ≠ [] := by
    intro none
    rw [none] at h
    cases h
  rw [List.getLast?_eq_some_getLast hne, Option.some_inj] at h
  exact List.rdropWhile_last_not _ cs hne (beq_iff_eq.2 h)

theorem mem_of_mem_dropEnd {c d : Char} {cs : List Char} (h : d ∈ dropEnd c cs) : d ∈ cs :=
  (List.rdropWhile_prefix (· == c) cs).subset h

/-- What is dropped are zeros. -/
theorem exists_zeros (cs : List Char) : ∃ k, cs = dropEnd '0' cs ++ List.replicate k '0' := by
  have zeros : ∀ c ∈ cs.rtakeWhile (· == '0'), c = '0' := by
    intro c hc
    have zero : (c == '0') = true := List.mem_rtakeWhile_imp (p := (· == '0')) hc
    exact beq_iff_eq.1 zero
  refine ⟨(cs.rtakeWhile (· == '0')).length, ?_⟩
  rw [← List.eq_replicate_of_mem zeros]
  exact List.rdropWhile_append_rtakeWhile.symm

/-- Zeros are dropped behind the point only. -/
theorem dropEnd_zeros (cs fraction : List Char) :
    dropEnd '0' (cs ++ '.' :: fraction) = cs ++ '.' :: dropEnd '0' fraction := by
  simp only [dropEnd_eq]
  induction fraction using List.reverseRecOn with
  | nil => exact List.rdropWhile_concat_neg _ _ _ (by decide)
  | append_singleton fraction c ih =>
    rw [← List.cons_append, ← List.append_assoc, List.rdropWhile_concat, List.rdropWhile_concat, ih]
    split
    · rfl
    · rw [List.append_assoc, List.cons_append]

/-- Digits behind a point; where there are none there is no point. -/
def pointed : List Char → List Char
  | [] => []
  | d :: ds => '.' :: d :: ds

theorem mem_pointed {c : Char} {ds : List Char} (h : c ∈ pointed ds) : c = '.' ∨ c ∈ ds := by
  cases ds with
  | nil => cases h
  | cons d ds => exact List.mem_cons.1 h

theorem getLast?_append_pointed (cs : List Char) {ds : List Char} (h : ds ≠ []) :
    (cs ++ pointed ds).getLast? = ds.getLast? := by
  obtain ⟨d, ds, rfl⟩ := List.exists_cons_of_ne_nil h
  rw [pointed, List.getLast?_append_cons, List.getLast?_cons_cons]

/-- The point is dropped just if no digits stand behind it. -/
theorem dropEnd_point {cs ds : List Char} (hc : '.' ∉ cs) (hd : '.' ∉ ds) :
    dropEnd '.' (cs ++ '.' :: ds) = cs ++ pointed ds := by
  cases ds with
  | nil =>
    have bare : dropEnd '.' cs = cs := dropEnd_eq_self fun h => hc (List.mem_of_getLast? h)
    rw [dropEnd_eq, List.rdropWhile_concat_pos _ _ _ (by decide), ← dropEnd_eq, bare]
    exact (List.append_nil cs).symm
  | cons d ds =>
    refine dropEnd_eq_self fun h => hd (List.mem_of_getLast? ?_)
    rwa [List.getLast?_append_cons, List.getLast?_cons_cons] at h

/-! ## In front of the point and behind it -/

/-- The text in front of the point. -/
def beforePoint (cs : List Char) : List Char :=
  cs.takeWhile (· != '.')

/-- The text behind the point. -/
def behindPoint (cs : List Char) : List Char :=
  (cs.dropWhile (· != '.')).tail

theorem exact_eq (cs : List Char) : exact cs =
    Text.number (beforePoint cs) + Text.number (behindPoint cs) / 10 ^ (behindPoint cs).length :=
  rfl

section Parts

variable {cs : List Char} (hc : '.' ∉ cs) (ds : List Char)
include hc

theorem ne_point : ∀ c ∈ cs, (c != '.') = true := by
  intro c h
  exact bne_iff_ne.2 fun point => hc (point ▸ h)

theorem beforePoint_append_cons : beforePoint (cs ++ '.' :: ds) = cs := by
  rw [beforePoint, List.takeWhile_append_of_pos (ne_point hc),
    List.takeWhile_cons_of_neg (by decide), List.append_nil]

theorem behindPoint_append_cons : behindPoint (cs ++ '.' :: ds) = ds := by
  rw [behindPoint, List.dropWhile_append_of_pos (ne_point hc),
    List.dropWhile_cons_of_neg (by decide), List.tail_cons]

theorem beforePoint_append_pointed : beforePoint (cs ++ pointed ds) = cs := by
  cases ds with
  | nil => rw [pointed, List.append_nil, beforePoint, List.takeWhile_eq_self_iff.2 (ne_point hc)]
  | cons d ds => exact beforePoint_append_cons hc (d :: ds)

theorem behindPoint_append_pointed : behindPoint (cs ++ pointed ds) = ds := by
  cases ds with
  | nil =>
    rw [pointed, List.append_nil, behindPoint, List.dropWhile_eq_nil_iff.2 (ne_point hc),
      List.tail_nil]
  | cons d ds => exact behindPoint_append_cons hc (d :: ds)

/-- Digits behind a point and those that are `pointed` write the same number. -/
theorem exact_append_pointed : exact (cs ++ pointed ds) = exact (cs ++ '.' :: ds) := by
  rw [exact_eq, exact_eq, beforePoint_append_pointed hc, behindPoint_append_pointed hc,
    beforePoint_append_cons hc, behindPoint_append_cons hc]

/-- Zeros at the end of a fraction do not count. -/
theorem exact_append_zeros (k : Nat) :
    exact (cs ++ '.' :: (ds ++ List.replicate k '0')) = exact (cs ++ '.' :: ds) := by
  have zeros : Text.number (List.replicate k '0') = 0 := by
    induction k with
    | zero => rfl
    | succ k ih => rw [List.replicate_succ', number_append, ih]; rfl
  rw [exact_eq, exact_eq, beforePoint_append_cons hc, behindPoint_append_cons hc,
    beforePoint_append_cons hc, behindPoint_append_cons hc, number_append, zeros,
    List.length_append, List.length_replicate, pow_add, add_zero]
  push_cast
  field_simp

end Parts

/-! ## Hours -/

theorem point_notMem_front (negative grouped : Bool) (n : Nat) :
    '.' ∉ front negative grouped n := by
  intro h
  rcases List.mem_append.1 h with sign | digit
  · cases negative <;> simp at sign
  · rcases Decimal.mem_wholeDigits digit with digit | comma
    · cases digit
    · cases comma

theorem notMem_padded {c : Char} (hc : c.isDigit = false) (width n : Nat) :
    c ∉ Date.padded width n := by
  intro h
  rw [Date.isDigit_of_mem_padded h] at hc
  cases hc

/-- A number and the hours of it have the same text in front of the point. -/
theorem exists_texts {x : Float} (hx : x.isFinite = true) : ∃ negative n m, m < 100 ∧
    (showNumber x).toList = front negative true n ++ '.' :: Date.padded 2 m ∧
    (showHours x).toList = front negative true n ++ pointed (dropEnd '0' (Date.padded 2 m)) := by
  obtain ⟨negative, n, text, -⟩ := Decimal.exists_fixed true 2 hx
  refine ⟨negative, n / tenTo 2, n % tenTo 2, Nat.mod_lt _ (by decide), text, ?_⟩
  have kept : '.' ∉ dropEnd '0' (Date.padded 2 (n % tenTo 2)) := fun h =>
    notMem_padded (by decide) _ _ (mem_of_mem_dropEnd h)
  rw [showHours, String.toList_ofList, showNumber, text, dropEnd_zeros,
    dropEnd_point (point_notMem_front _ _ _) kept]

theorem denoted_of_front {s : String} {negative : Bool} {n : Nat} {rest : List Char}
    (hs : s.toList = front negative true n ++ rest) (hr : ',' ∉ rest) :
    denoted s = (if negative then -1 else 1) * exact (Nat.toDigits 10 n ++ rest) := by
  have plain : rest.filter (· != ',') = rest :=
    List.filter_eq_self.2 fun c hc => bne_iff_ne.2 fun comma => hr (comma ▸ hc)
  have split := takeSign_front negative true n rest
  rw [← hs] at split
  rw [denoted_of_takeSign split, List.filter_append, Decimal.filter_wholeDigits, plain]

/--
A text is another one without needless zeros: it denotes the same number, by the same sign, digits
and commas in front of the point, and ends neither in a point nor in a zero behind one.
-/
structure Shortens (short full : String) : Prop where
  denoted_eq : denoted short = denoted full
  beforePoint_eq : beforePoint short.toList = beforePoint full.toList
  not_point_last : short.toList.getLast? ≠ some '.'
  not_zero_last : '.' ∈ short.toList → short.toList.getLast? ≠ some '0'

theorem shortens_showHours {x : Float} (hx : x.isFinite = true) :
    Shortens (showHours x) (showNumber x) := by
  obtain ⟨negative, n, m, -, number, hours⟩ := exists_texts hx
  have before := point_notMem_front negative true n
  have behind : '.' ∉ dropEnd '0' (Date.padded 2 m) := fun h =>
    notMem_padded (by decide) _ _ (mem_of_mem_dropEnd h)
  constructor
  case denoted_eq =>
    have whole : '.' ∉ Nat.toDigits 10 n := fun h => nomatch Decimal.isDigit_of_mem_toDigits _ h
    have digits : ',' ∉ Date.padded 2 m := notMem_padded (by decide) 2 m
    have kept : ',' ∉ pointed (dropEnd '0' (Date.padded 2 m)) := fun h =>
      (mem_pointed h).elim (by decide) fun h => digits (mem_of_mem_dropEnd h)
    have all : ',' ∉ '.' :: Date.padded 2 m := fun h =>
      (List.mem_cons.1 h).elim (by decide) digits
    obtain ⟨k, zeros⟩ := exists_zeros (Date.padded 2 m)
    rw [denoted_of_front hours kept, denoted_of_front number all, exact_append_pointed whole,
      ← exact_append_zeros whole _ k, ← zeros]
  case beforePoint_eq =>
    rw [hours, number, beforePoint_append_pointed before, beforePoint_append_cons before]
  case not_point_last =>
    rw [hours]
    intro last
    by_cases none : dropEnd '0' (Date.padded 2 m) = []
    · rw [none, pointed, List.append_nil] at last
      exact before (List.mem_of_getLast? last)
    · rw [getLast?_append_pointed _ none] at last
      exact behind (List.mem_of_getLast? last)
  case not_zero_last =>
    rw [hours]
    intro point last
    by_cases none : dropEnd '0' (Date.padded 2 m) = []
    · rw [none, pointed, List.append_nil] at point
      exact before point
    · rw [getLast?_append_pointed _ none] at last
      exact getLast?_dropEnd '0' _ last

/-- A text with digits behind the point up to two, zeros where there are none. -/
def withPlaces (cs : List Char) : List Char :=
  beforePoint cs ++
    '.' :: (behindPoint cs ++ List.replicate (2 - (behindPoint cs).length) '0')

/-- The places that hours have lost can be had back. -/
theorem withPlaces_showHours {x : Float} (hx : x.isFinite = true) :
    withPlaces (showHours x).toList = (showNumber x).toList := by
  obtain ⟨negative, n, m, hm, number, hours⟩ := exists_texts hx
  have before := point_notMem_front negative true n
  obtain ⟨k, zeros⟩ := exists_zeros (Date.padded 2 m)
  have length := congrArg List.length zeros
  rw [Date.length_padded_two (by omega), List.length_append, List.length_replicate] at length
  have count : 2 - (dropEnd '0' (Date.padded 2 m)).length = k := by omega
  rw [withPlaces, hours, number, beforePoint_append_pointed before,
    behindPoint_append_pointed before, count, ← zeros]

/--
The hours of a finite number are a shorter text of the number with two places, which denotes the
hundredths nearest to it. They are the same for two numbers just if the texts with two places are.
-/
theorem hours_shorten_numbers (x : Float) (hx : x.isFinite = true) :
    Shortens (showHours x) (showNumber x) ∧
      denoted (showNumber x) = roundEven (value x * 10 ^ 2) / 10 ^ 2 ∧
      ∀ y : Float, y.isFinite = true →
        (showHours x = showHours y ↔ showNumber x = showNumber y) := by
  refine ⟨shortens_showHours hx, Decimal.denoted_fixed (by decide) hx, fun y hy => ⟨?_, ?_⟩⟩
  · intro same
    rw [← String.toList_inj, ← withPlaces_showHours hx, ← withPlaces_showHours hy, same]
  · intro same
    rw [showHours, showHours, same]

/-- The zeros of a round thousand are kept, and both of its places are dropped. -/
theorem hours_shorten_numbers_thousand :
    (1000.0 : Float).isFinite = true ∧ showNumber 1000.0 = "1,000.00" ∧
      showHours 1000.0 = "1,000" ∧ Shortens (showHours 1000.0) (showNumber 1000.0) ∧
      (1000.001 : Float).isFinite = true ∧ showHours 1000.0 = showHours 1000.001 := by
  have finite : (1000.0 : Float).isFinite = true := by decide +kernel
  have near : (1000.001 : Float).isFinite = true := by decide +kernel
  obtain ⟨short, -, same⟩ := hours_shorten_numbers 1000.0 finite
  exact ⟨finite, by decide +kernel, by decide +kernel, short, near,
    (same 1000.001 near).2 (by decide +kernel)⟩

end Worklog
