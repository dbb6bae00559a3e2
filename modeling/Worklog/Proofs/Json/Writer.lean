import Worklog.Json.Writer
import Worklog.Proofs.Text.PrefixFree

/-!
# Numbers and strings in JSON

Different numbers and strings are written differently, and a string that is written with its
quotes can be told from whatever follows it (`prefixFree_writeString`), because no escape is the
start of another one and none begins with a quote.
-/

namespace Worklog.Json

open Text (PrefixFree)

/-! ## Whole numbers -/

theorem toDigits_injective : Function.Injective (Nat.toDigits 10) := by
  intro m n h
  rw [← Nat.ofDigitChars_ten_toDigits (n := m), h, Nat.ofDigitChars_ten_toDigits]

theorem toList_toString_ofNat (n : Nat) :
    (toString (n : Int)).toList = Nat.toDigits 10 n :=
  Nat.toList_repr

theorem toList_toString_negSucc (n : Nat) :
    (toString (Int.negSucc n)).toList = '-' :: Nat.toDigits 10 (n + 1) := by
  change ("-" ++ (n + 1).repr).toList = _
  rw [String.toList_append, Nat.toList_repr]
  rfl

theorem notMem_toDigits {c : Char} (hc : c.isDigit = false) (n : Nat) : c ∉ Nat.toDigits 10 n := by
  intro h
  have := Nat.isDigit_of_mem_toDigits (by decide) (by decide) h
  rw [hc] at this
  cases this

/-- The text of a whole number holds nothing but digits and a sign. -/
theorem notMem_toList_toString {c : Char} (hc : c.isDigit = false) (hs : c ≠ '-') (n : Int) :
    c ∉ (toString n).toList := by
  cases n with
  | ofNat n =>
    rw [Int.ofNat_eq_natCast, toList_toString_ofNat]
    exact notMem_toDigits hc n
  | negSucc n =>
    rw [toList_toString_negSucc, List.mem_cons, not_or]
    exact ⟨hs, notMem_toDigits hc (n + 1)⟩

theorem toList_toString_injective : Function.Injective fun n : Int => (toString n).toList := by
  have sign : ∀ m n, Nat.toDigits 10 m ≠ '-' :: Nat.toDigits 10 n := by
    intro m n h
    exact notMem_toDigits (c := '-') (by decide) m (h ▸ List.mem_cons_self ..)
  intro a b h
  cases a with
  | ofNat m =>
    cases b with
    | ofNat n =>
      simp only [Int.ofNat_eq_natCast, toList_toString_ofNat] at h
      rw [toDigits_injective h]
    | negSucc n =>
      simp only [Int.ofNat_eq_natCast, toList_toString_ofNat, toList_toString_negSucc] at h
      exact absurd h (sign m _)
  | negSucc m =>
    cases b with
    | ofNat n =>
      simp only [Int.ofNat_eq_natCast, toList_toString_ofNat, toList_toString_negSucc] at h
      exact absurd h.symm (sign n _)
    | negSucc n =>
      simp only [toList_toString_negSucc, List.cons.injEq, true_and] at h
      rw [Nat.succ.inj (toDigits_injective h)]

/-! ## Strings -/

/-- The code points that are escaped: controls, the quote and the backslash. -/
def escapedCodes : List Nat :=
  List.range 0x20 ++ [0x22, 0x5C]

/-- The escapes of two characters differ from the start. -/
theorem eq_of_prefix_escape : ∀ m ∈ escapedCodes, ∀ n ∈ escapedCodes,
    escapedChar false (Char.ofNat m) <+: escapedChar false (Char.ofNat n) → m = n := by
  decide +kernel

theorem head?_escape : ∀ n ∈ escapedCodes,
    (escapedChar false (Char.ofNat n)).head? = some '\\' := by
  decide +kernel

theorem ne_of_notMem_escapedCodes {c : Char} (h : c.toNat ∉ escapedCodes) {d : Char}
    (hd : d.toNat ∈ escapedCodes) : c ≠ d := by
  rintro rfl
  exact h hd

/-- Every other character is written as itself. -/
theorem escapedChar_of_notMem {c : Char} (h : c.toNat ∉ escapedCodes) :
    escapedChar false c = [c] := by
  have ne {d : Char} (hd : d.toNat ∈ escapedCodes) : c ≠ d := ne_of_notMem_escapedCodes h hd
  have large : ¬ c.toNat < 0x20 := fun hc =>
    h (List.mem_append_left _ (List.mem_range.2 hc))
  unfold escapedChar
  rw [if_neg (not_or.2 ⟨ne (by decide), ne (by decide)⟩), if_neg (ne (by decide)),
    if_neg (ne (by decide)), if_neg (ne (by decide)), if_neg (ne (by decide)),
    if_neg (ne (by decide)), if_neg large]
  rfl

theorem head?_escapedChar {c : Char} (h : c.toNat ∈ escapedCodes) :
    (escapedChar false c).head? = some '\\' := by
  have := head?_escape c.toNat h
  rwa [Char.ofNat_toNat] at this

theorem prefixFree_escapedChar : PrefixFree (escapedChar false) := by
  refine .of_prefix_imp_eq fun a b hab => ?_
  by_cases ha : a.toNat ∈ escapedCodes
  · by_cases hb : b.toNat ∈ escapedCodes
    · have := eq_of_prefix_escape a.toNat ha b.toNat hb
      rw [Char.ofNat_toNat, Char.ofNat_toNat] at this
      exact Char.toNat_inj.1 (this hab)
    · obtain ⟨ds, hds⟩ := List.head?_eq_some_iff.1 (head?_escapedChar ha)
      rw [hds, escapedChar_of_notMem hb, List.cons_prefix_cons] at hab
      exact absurd hab.1.symm (ne_of_notMem_escapedCodes hb (by decide))
  · by_cases hb : b.toNat ∈ escapedCodes
    · obtain ⟨ds, hds⟩ := List.head?_eq_some_iff.1 (head?_escapedChar hb)
      rw [hds, escapedChar_of_notMem ha, List.cons_prefix_cons] at hab
      exact absurd hab.1 (ne_of_notMem_escapedCodes ha (by decide))
    · rw [escapedChar_of_notMem ha, escapedChar_of_notMem hb, List.cons_prefix_cons] at hab
      exact hab.1

/-- A string with its quotes can be told from what follows it. -/
theorem prefixFree_writeString : PrefixFree fun s => (writeString false s).toList := by
  have inside : ∀ c, ∃ d ds, escapedChar false c = d :: ds ∧ d ≠ '"' := by
    intro c
    by_cases hc : c.toNat ∈ escapedCodes
    · obtain ⟨ds, hds⟩ := List.head?_eq_some_iff.1 (head?_escapedChar hc)
      exact ⟨_, _, hds, by decide⟩
    · exact ⟨c, [], escapedChar_of_notMem hc, ne_of_notMem_escapedCodes hc (by decide)⟩
  intro s t x y h
  simp only [writeString, String.toList_ofList, List.cons_append, List.cons.injEq, true_and] at h
  obtain ⟨hs, hx⟩ := prefixFree_escapedChar.listed inside h
  exact ⟨String.toList_inj.1 hs, hx⟩

/-! ## Objects on one line -/

/-- The text of a member in the style of keys. -/
def memberText (depth : Nat) (m : String × Json) : List Char :=
  (writeString false m.1).toList ++ ':' :: (write .compact depth m.2).toList

theorem toList_writeMembers (depth : Nat) (ms : List (String × Json)) :
    (writeMembers .compact depth ms).toList = ms.flatMap fun m => ',' :: memberText depth m := by
  induction ms with
  | nil => rw [writeMembers]; rfl
  | cons m ms ih =>
    rw [writeMembers]
    simp only [String.toList_append, ih, List.flatMap_cons, memberText]
    simp [Style.gap, Style.colon, Style.compact]

/-- In the style of keys, an object is its members with commas between. -/
theorem toList_write_object (depth : Nat) (m : String × Json) (ms : List (String × Json)) :
    (write .compact depth (.object (m :: ms))).toList =
      '\x7b' :: memberText (depth + 1) m ++
        (ms.flatMap fun m => ',' :: memberText (depth + 1) m) ++ ['\x7d'] := by
  rw [write]
  simp only [String.toList_append, toList_writeMembers, memberText]
  simp [Style.gap, Style.colon, Style.compact]

end Worklog.Json
