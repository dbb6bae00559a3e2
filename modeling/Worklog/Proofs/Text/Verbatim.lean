import Mathlib.Data.List.Infix
import Worklog.Text.Contains

/-!
# Texts that are found wherever they occur

A text is looked for by its lower-case form, and that of a capital sigma depends on the letters
around it. So a text may have one form alone and another one where it occurs. It has the same form
everywhere if its own letters settle the form of each of its sigmas (`isSettled`), and exactly then
it is found in every text that holds it as it stands (`mentions_iff_isSettled`). For every other
text a single letter in front of it or behind it is enough to hide it.
-/

namespace Worklog.Text

/-! ## Forms between other characters -/

/-- The lower-case form of a text between others, `before` being nearest first. -/
def lowerBetween (before cs after : List Char) : List Char :=
  match cs with
  | [] => []
  | c :: rest => lowerIn before c (rest ++ after) ++ lowerBetween (c :: before) rest after

theorem lowerAfter_append (before cs after : List Char) :
    lowerAfter before (cs ++ after) =
      lowerBetween before cs after ++ lowerAfter (cs.reverse ++ before) after := by
  induction cs generalizing before with
  | nil => rfl
  | cons c rest ih => simp [lowerAfter, lowerBetween, ih]

theorem lowerAfter_eq (before cs : List Char) :
    lowerAfter before cs = lowerBetween before cs [] := by
  have whole := lowerAfter_append before cs []
  rwa [List.append_nil, lowerAfter, List.append_nil] at whole

/-- A form is as long as the characters make it, whatever stands around them. -/
theorem length_lowerIn (c : Char) (before after before' after' : List Char) :
    (lowerIn before c after).length = (lowerIn before' c after').length := by
  unfold lowerIn
  split
  · rfl
  · split <;> rfl

theorem length_lowerBetween (cs before after before' after' : List Char) :
    (lowerBetween before cs after).length = (lowerBetween before' cs after').length := by
  induction cs generalizing before before' with
  | nil => rfl
  | cons c rest ih =>
    rw [lowerBetween, lowerBetween, List.length_append, List.length_append, ih _ (c :: before'),
      length_lowerIn c _ _ before' (rest ++ after')]

/-! ## Sigmas whose form is settled -/

/-- The nearest character that is not skipped. -/
def nearest? (cs : List Char) : Option Char :=
  cs.find? fun c => !isSkipped c

/--
Whether the form of a sigma depends on nothing but the characters around it, nearest first on
either side: it has neighbours on both sides, or one that settles the form alone.
-/
def settlesSigma (before after : List Char) : Bool :=
  match nearest? before, nearest? after with
  | some _, some _ => true
  | some b, none => !isCased b
  | none, some a => isCased a
  | none, none => false

/-- Whether the form of each capital sigma in a text that `before` precedes is settled. -/
def isSettled (before : List Char) : List Char → Bool
  | [] => true
  | c :: after => (c != 'Σ' || settlesSigma before after) && isSettled (c :: before) after

theorem isSettled_of_notMem {cs : List Char} (before : List Char) (h : 'Σ' ∉ cs) :
    isSettled before cs = true := by
  induction cs generalizing before with
  | nil => rfl
  | cons c rest ih =>
    obtain ⟨hc, rest⟩ := List.ne_and_not_mem_of_not_mem_cons h
    simp [isSettled, ih _ rest, hc.symm]

theorem nearestIsCased_eq (cs : List Char) : nearestIsCased cs = (nearest? cs).any isCased :=
  rfl

theorem nearest?_append (cs ds : List Char) :
    nearest? (cs ++ ds) = (nearest? cs).or (nearest? ds) :=
  List.find?_append

theorem sigmaIsFinal_append {before after : List Char} (h : settlesSigma before after = true)
    (first last : List Char) :
    sigmaIsFinal (before ++ first) (after ++ last) = sigmaIsFinal before after := by
  simp only [sigmaIsFinal, nearestIsCased_eq, nearest?_append]
  unfold settlesSigma at h
  cases hb : nearest? before with
  | some b =>
    cases ha : nearest? after with
    | some a => rfl
    | none =>
      rw [hb, ha] at h
      have plain : isCased b = false := by simpa using h
      simp [plain]
  | none =>
    cases ha : nearest? after with
    | some a =>
      rw [hb, ha] at h
      have cased : isCased a = true := h
      simp [cased]
    | none =>
      rw [hb, ha] at h
      cases h

/-- A settled text has one form, whatever stands around it. -/
theorem lowerBetween_of_isSettled {before cs : List Char} (h : isSettled before cs = true)
    (first last : List Char) :
    lowerBetween (before ++ first) cs last = lowerBetween before cs [] := by
  induction cs generalizing before with
  | nil => rfl
  | cons c rest ih =>
    rw [isSettled, Bool.and_eq_true] at h
    have head : lowerIn (before ++ first) c (rest ++ last) = lowerIn before c (rest ++ []) := by
      rw [List.append_nil]
      by_cases hc : c = 'Σ'
      · have settled : settlesSigma before rest = true := by simpa [hc] using h.1
        rw [lowerIn, lowerIn, if_pos hc, if_pos hc, sigmaIsFinal_append settled]
      · rw [lowerIn, lowerIn, if_neg hc, if_neg hc]
    rw [lowerBetween, lowerBetween, head, ← List.cons_append, ih h.2]

/-! ## Letters that change a form -/

/-- A character that has case and is the same in lower case. -/
structure IsSmallLetter (x : Char) : Prop where
  nearest : nearest? [x] = some x
  cased : isCased x = true
  lower : ∀ before after, lowerIn before x after = [x]

theorem isSmallLetter_a : IsSmallLetter 'a' := ⟨by decide, by decide, fun _ _ => rfl⟩

theorem isSmallLetter_b : IsSmallLetter 'b' := ⟨by decide, by decide, fun _ _ => rfl⟩

/-- There is a small letter other than a given character. -/
theorem exists_isSmallLetter (c : Option Char) : ∃ x, IsSmallLetter x ∧ c ≠ some x := by
  by_cases h : c = some 'a'
  · exact ⟨'b', isSmallLetter_b, by rw [h]; decide⟩
  · exact ⟨'a', isSmallLetter_a, h⟩

/-- A sigma whose form is not settled takes another one behind a letter or in front of one. -/
theorem sigmaIsFinal_ne {before after : List Char} (h : settlesSigma before after = false) :
    (∀ x, IsSmallLetter x → sigmaIsFinal (before ++ [x]) after ≠ sigmaIsFinal before after) ∨
      ∀ x, IsSmallLetter x → sigmaIsFinal before (after ++ [x]) ≠ sigmaIsFinal before after := by
  simp only [sigmaIsFinal, nearestIsCased_eq, nearest?_append]
  unfold settlesSigma at h
  cases hb : nearest? before with
  | none =>
    have uncased : (nearest? after).any isCased = false := by
      cases ha : nearest? after with
      | none => rfl
      | some a => simpa [hb, ha] using h
    refine .inl fun x hx => ?_
    simp [hx.nearest, hx.cased, uncased]
  | some b =>
    cases ha : nearest? after with
    | none =>
      have cased : isCased b = true := by simpa [hb, ha] using h
      refine .inr fun x hx => ?_
      simp [hx.nearest, hx.cased, cased]
    | some a => simp [hb, ha] at h

theorem lowerBetween_cons_ne {c : Char} {before rest after before' after' : List Char}
    (h : lowerIn before c (rest ++ after) ≠ lowerIn before' c (rest ++ after') ∨
      lowerBetween (c :: before) rest after ≠ lowerBetween (c :: before') rest after') :
    lowerBetween before (c :: rest) after ≠ lowerBetween before' (c :: rest) after' := by
  intro same
  obtain ⟨head, tail⟩ := List.append_inj same (length_lowerIn ..)
  exact h.elim (· head) (· tail)

/-- A text that is not settled has another form behind a letter or in front of one. -/
theorem lowerBetween_ne {before cs : List Char} (h : isSettled before cs = false) :
    (∀ x, IsSmallLetter x → lowerBetween (before ++ [x]) cs [] ≠ lowerBetween before cs []) ∨
      ∀ x, IsSmallLetter x → lowerBetween before cs [x] ≠ lowerBetween before cs [] := by
  induction cs generalizing before with
  | nil => cases h
  | cons c rest ih =>
    rw [isSettled, Bool.and_eq_false_iff] at h
    obtain sigma | rest := h
    · obtain ⟨rfl, sigma⟩ : c = 'Σ' ∧ settlesSigma before rest = false := by simpa using sigma
      have forms {p q : Bool} (ne : p ≠ q) :
          [if p then 'ς' else 'σ'] ≠ [if q then 'ς' else 'σ'] := by
        revert p q
        decide
      refine (sigmaIsFinal_ne sigma).imp (fun ne x hx => ?_) fun ne x hx => ?_
      · refine lowerBetween_cons_ne (.inl ?_)
        rw [List.append_nil]
        exact forms (ne x hx)
      · refine lowerBetween_cons_ne (.inl ?_)
        rw [List.append_nil]
        exact forms (ne x hx)
    · exact (ih rest).imp (fun ne x hx => lowerBetween_cons_ne (.inr (ne x hx)))
        fun ne x hx => lowerBetween_cons_ne (.inr (ne x hx))

/-! ## Finding what occurs -/

theorem mentions_singleton (needle s : String) :
    mentions needle [some s] = true ↔
      s ≠ "" ∧ lowerAfter [] needle.toList <:+: lowerAfter [] s.toList := by
  simp [mentions, lower, occursIn_iff]

/-- A text that is not settled is hidden by a letter in front of it or behind it. -/
theorem exists_hidden {cs : List Char} (h : isSettled [] cs = false) :
    ∃ first last, ¬ lowerAfter [] cs <:+: lowerAfter [] (first ++ cs ++ last) := by
  rw [lowerAfter_eq]
  obtain front | back := lowerBetween_ne h
  · obtain ⟨x, hx, other⟩ := exists_isSmallLetter (lowerBetween [] cs []).head?
    have form : lowerAfter [] ([x] ++ cs ++ []) = x :: lowerBetween [x] cs [] := by
      rw [List.append_nil, List.singleton_append, lowerAfter, hx.lower, lowerAfter_eq]
      rfl
    refine ⟨[x], [], ?_⟩
    rw [form, List.infix_cons_iff]
    rintro (begins | within)
    · obtain empty | ⟨t, begins, -⟩ := List.prefix_cons_iff.1 begins
      · have length := length_lowerBetween cs [x] [] [] []
        rw [empty, List.length_nil, List.length_eq_zero_iff] at length
        exact front x hx (length.trans empty.symm)
      · exact other (by rw [begins, List.head?_cons])
    · exact front x hx (within.eq_of_length (length_lowerBetween ..)).symm
  · obtain ⟨x, hx, other⟩ := exists_isSmallLetter (lowerBetween [] cs []).getLast?
    have form : lowerAfter [] ([] ++ cs ++ [x]) = lowerBetween [] cs [x] ++ [x] := by
      rw [List.nil_append, lowerAfter_append, lowerAfter, hx.lower, lowerAfter, List.append_nil]
    refine ⟨[], [x], ?_⟩
    rw [form, List.infix_concat_iff]
    rintro (ends | within)
    · obtain empty | ⟨t, ends, -⟩ := List.suffix_concat_iff.1 ends
      · have length := length_lowerBetween cs [] [x] [] []
        rw [empty, List.length_nil, List.length_eq_zero_iff] at length
        exact back x hx (length.trans empty.symm)
      · exact other (by rw [ends, List.getLast?_concat])
    · exact back x hx (within.eq_of_length (length_lowerBetween ..)).symm

/-- A text is found in every text that holds it as it stands if and only if it is settled. -/
theorem mentions_iff_isSettled {needle : String} (h : needle ≠ "") :
    (∀ s : String, needle.toList <:+: s.toList → mentions needle [some s] = true) ↔
      isSettled [] needle.toList = true := by
  constructor
  · intro found
    by_contra unsettled
    obtain ⟨first, last, hidden⟩ := exists_hidden (Bool.eq_false_iff.2 unsettled)
    have holds : needle.toList <:+: (String.ofList (first ++ needle.toList ++ last)).toList := by
      rw [String.toList_ofList]
      exact ⟨first, last, rfl⟩
    have form := ((mentions_singleton ..).1 (found _ holds)).2
    rw [String.toList_ofList] at form
    exact hidden form
  · rintro settled s ⟨first, last, holds⟩
    refine (mentions_singleton ..).2 ⟨?_, ?_⟩
    · rintro rfl
      have none_left := (List.append_eq_nil_iff.1 holds).1
      exact h (String.toList_eq_nil_iff.1 (List.append_eq_nil_iff.1 none_left).2)
    · rw [← holds, List.append_assoc, lowerAfter_append, lowerAfter_append,
        ← List.nil_append (first.reverse ++ []), lowerBetween_of_isSettled settled, lowerAfter_eq]
      exact ⟨_, _, List.append_assoc ..⟩

end Worklog.Text
