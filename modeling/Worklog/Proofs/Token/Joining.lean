import Worklog.Proofs.Decimal.Numeral
import Worklog.Proofs.Token.Tiling

/-!
# Texts joined by a line feed

White space ends every piece in front of it, except for a quote that is not closed, and a line feed
also ends a comment (`extent_append_blank`). So the tokens of two texts with a line feed between
them are those of the first text and then those of the second one, which stand further down by the
lines of the first (`tokenize_append_newline`).
-/

namespace Worklog

/-- The position that stands so many lines further down. -/
def Position.down (k : Nat) (p : Position) : Position :=
  ⟨p.line + k, p.column⟩

/-- The token with its position changed. -/
def Token.moved (f : Position → Position) (t : Token) : Token :=
  { t with position := f t.position }

theorem Position.after_down (k : Nat) (p : Position) (cs : List Char) :
    (p.down k).after cs = (p.after cs).down k := by
  induction cs generalizing p with
  | nil => rfl
  | cons c cs ih =>
    have step : (p.down k).next c = (p.next c).down k := by
      unfold next
      split
      · rw [down, down, Nat.add_right_comm]
      · rfl
    exact (congrArg (·.after cs) step).trans (ih (p.next c))

theorem Position.start_after_newline (cs : List Char) :
    start.after (cs ++ ['\n']) = start.down (cs.count '\n' + 1) := by
  rw [after_start, List.count_append, List.reverse_append]
  rfl

namespace Token

/-! ## What white space ends -/

theorem runLength_append (p : Char → Bool) (xs ys : List Char) :
    runLength p (xs ++ ys) =
      if runLength p xs = xs.length then xs.length + runLength p ys else runLength p xs := by
  unfold runLength
  rw [List.takeWhile_append]
  split
  · rw [List.length_append]
  · rfl

theorem runLength_le (p : Char → Bool) (cs : List Char) : runLength p cs ≤ cs.length :=
  (List.takeWhile_sublist p).length_le

/-- A run ends at a character that is not of its kind. -/
theorem runLength_append_stop {p : Char → Bool} {w : Char} (hw : p w = false) (xs ys : List Char) :
    runLength p (xs ++ w :: ys) = runLength p xs := by
  have none : runLength p (w :: ys) = 0 := by simp [runLength, hw]
  rw [runLength_append, none]
  split
  · omega
  · rfl

theorem runLength_append_of_lt {p : Char → Bool} {xs : List Char} (h : runLength p xs < xs.length)
    (ys : List Char) : runLength p (xs ++ ys) = runLength p xs := by
  rw [runLength_append, if_neg (Nat.ne_of_lt h)]

theorem fractionLength_of_ne {c : Char} (h : c ≠ '.') (cs : List Char) :
    fractionLength (c :: cs) = 0 := by
  unfold fractionLength
  split
  · rename_i heq
    exact absurd (List.cons.inj heq).1 h
  · rfl

theorem fractionLength_append_stop {w : Char} (point : w ≠ '.') (digit : Text.isDigit w = false)
    (xs ys : List Char) : fractionLength (xs ++ w :: ys) = fractionLength xs := by
  match xs with
  | [] => exact fractionLength_of_ne point ys
  | [c] =>
    by_cases hc : c = '.'
    · subst hc
      simp [fractionLength, digit]
    · exact (fractionLength_of_ne hc _).trans (fractionLength_of_ne hc _).symm
  | c :: d :: xs =>
    by_cases hc : c = '.'
    · subst hc
      simp only [List.cons_append, fractionLength, runLength_append_stop digit]
    · exact (fractionLength_of_ne hc _).trans (fractionLength_of_ne hc _).symm

theorem fractionLength_le (cs : List Char) : fractionLength cs ≤ cs.length := by
  unfold fractionLength
  split
  · rename_i rest
    have := runLength_le Text.isDigit rest
    split <;> simp only [List.length_cons] <;> omega
  · exact Nat.zero_le _

theorem head?_append_stop {d w : Char} (hd : w ≠ d) (xs ys : List Char) :
    (xs ++ w :: ys).head? = some d ↔ xs.head? = some d := by
  cases xs with
  | nil => simp [hd]
  | cons x xs => rfl

theorem extent_le (c : Char) (rest : List Char) : (extent c rest).2 ≤ rest.length := by
  fun_cases extent c rest with
  | case1 => exact runLength_le ..
  | case2 => exact runLength_le ..
  | case3 _ _ _ body h => exact h
  | case4 _ _ _ body h => exact runLength_le ..
  | case5 _ _ _ _ whole =>
    have := runLength_le Text.isDigit rest
    have := fractionLength_le (rest.drop whole)
    rw [List.length_drop] at this
    omega
  | case6 =>
    split
    · rename_i h
      obtain ⟨tail, rfl⟩ := List.head?_eq_some_iff.1 h
      simp
    · exact Nat.zero_le _
  | case7 _ _ _ _ _ h =>
    obtain ⟨tail, rfl⟩ := List.head?_eq_some_iff.1 h.2
    simp
  | case8 => exact Nat.zero_le _
  | case9 => exact runLength_le ..
  | case10 => exact Nat.zero_le _

theorem continuesWord_of_isBlank {w : Char} (h : Text.isBlank w = true) :
    continuesWord w = false := by
  have apart : ∀ c : Char, c.toNat < 0x80 → Text.isBlank c = true → continuesWord c = false :=
    forall_ascii (by decide)
  by_contra hw
  have word : continuesWord w = true := by simpa using hw
  rw [apart w (toNat_lt_of_continuesWord word) h] at word
  cases word

/--
White space ends every piece but white space and a quote that is not closed, as long as it is a line
feed where a comment ends.
-/
theorem extent_append_blank {w : Char} (hw : Text.isBlank w = true) {c : Char} {rest : List Char}
    (hb : Text.isBlank c = false) (closed : (extent c rest).1 ≠ .openQuote)
    (line : (extent c rest).1 = .comment → w = '\n') (ys : List Char) :
    extent c (rest ++ w :: ys) = extent c rest := by
  have ne : ∀ d, Text.isBlank d = false → w ≠ d := by
    rintro d hd rfl
    rw [hw] at hd
    cases hd
  have digit : Text.isDigit w = false := by
    by_contra hd
    exact ne w (Decimal.Numeral.isBlank_of_isDigit (by simpa using hd)) rfl
  have word := continuesWord_of_isBlank hw
  have slash := head?_append_stop (ne '/' (by decide)) rest ys
  have equals := head?_append_stop (ne '=' (by decide)) rest ys
  have whole : (rest ++ w :: ys).drop (runLength Text.isDigit rest) =
      rest.drop (runLength Text.isDigit rest) ++ w :: ys :=
    List.drop_append_of_le_length (runLength_le Text.isDigit rest)
  unfold extent at closed line ⊢
  simp only [hb, Bool.false_eq_true, if_false, slash, equals, runLength_append_stop digit,
    runLength_append_stop word, whole, fractionLength_append_stop (ne '.' (by decide)) digit]
    at closed line ⊢
  by_cases hc : c = '/' ∧ rest.head? = some '/'
  · rw [if_pos hc] at line
    obtain rfl := line rfl
    rw [if_pos hc, if_pos hc, runLength_append_stop (by decide)]
  rw [if_neg hc] at closed ⊢
  rw [if_neg hc]
  by_cases hq : c = '"' ∨ c = '\''
  · rw [if_pos hq] at closed ⊢
    rw [if_pos hq]
    by_cases body : runLength (· != c) rest < rest.length
    · have longer : runLength (· != c) rest < (rest ++ w :: ys).length := by
        rw [List.length_append]
        omega
      rw [runLength_append_of_lt body, if_pos longer, if_pos body]
    · rw [if_neg body] at closed
      exact absurd rfl closed
  · rw [if_neg hq, if_neg hq]

/-! ## Placing what stands further down -/

theorem place_none {p : Piece} (h : p.content? = none) (position : Position) (ps : List Piece) :
    place position (p :: ps) = place (position.after p.text) ps := by
  rw [place, h]

theorem place_some {p : Piece} {content : Content} (h : p.content? = some content)
    (position : Position) (ps : List Piece) : place position (p :: ps) =
      ⟨content, String.ofList p.text, position⟩ :: place (position.after p.text) ps := by
  rw [place, h]

theorem place_down (k : Nat) (position : Position) (ps : List Piece) :
    place (position.down k) ps = (place position ps).map (moved (.down k)) := by
  induction ps generalizing position with
  | nil => rfl
  | cons p ps ih =>
    cases hc : p.content? with
    | none => rw [place_none hc, place_none hc, Position.after_down, ih]
    | some content =>
      rw [place_some hc, place_some hc, Position.after_down, ih]
      rfl

theorem drop_runLength (p : Char → Bool) (cs : List Char) :
    cs.drop (runLength p cs) = cs.dropWhile p := by
  have split := List.takeWhile_append_dropWhile (p := p) (l := cs)
  unfold runLength
  nth_rewrite 2 [← split]
  exact List.drop_left

/-- White space at the start of a text moves its tokens and adds none. -/
theorem place_leading (position : Position) (cs : List Char) :
    place position (pieces cs) =
      place (position.after (cs.takeWhile Text.isBlank)) (pieces (cs.dropWhile Text.isBlank)) := by
  cases cs with
  | nil => rfl
  | cons c rest =>
    by_cases hb : Text.isBlank c = true
    · have blank : extent c rest = (.blank, runLength Text.isBlank rest) := by
        rw [extent, if_pos hb]
      rw [pieces, blank, take_runLength, drop_runLength, List.takeWhile_cons_of_pos hb,
        List.dropWhile_cons_of_pos hb]
      rfl
    · rw [List.takeWhile_cons_of_neg hb, List.dropWhile_cons_of_neg hb]
      rfl

theorem place_blank {c : Char} (hb : Text.isBlank c = true) (position : Position) (cs : List Char) :
    place position (pieces (c :: cs)) = place (position.next c) (pieces cs) := by
  rw [place_leading, place_leading (position.next c), List.takeWhile_cons_of_pos hb,
    List.dropWhile_cons_of_pos hb]
  rfl

theorem place_append_blank {bs : List Char} (hb : ∀ c ∈ bs, Text.isBlank c = true)
    (position : Position) (cs : List Char) :
    place position (pieces (bs ++ cs)) = place (position.after bs) (pieces cs) := by
  induction bs generalizing position with
  | nil => rfl
  | cons b bs ih =>
    rw [List.forall_mem_cons] at hb
    rw [List.cons_append, place_blank hb.1, ih hb.2]
    rfl

theorem place_ne_nil (position : Position) (ps : List Piece) : place position ps ≠ [] := by
  induction ps generalizing position with
  | nil => simp [place]
  | cons p ps ih =>
    cases hc : p.content? with
    | none =>
      rw [place_none hc]
      exact ih _
    | some content =>
      rw [place_some hc]
      exact List.cons_ne_nil _ _

/--
If no quote stays open in the first text, its tokens are followed by those of the second one, which
are placed behind it.
-/
theorem place_append_newline (position : Position) (cs ds : List Char)
    (closed : ∀ p ∈ pieces cs, p.shape ≠ .openQuote) :
    place position (pieces (cs ++ '\n' :: ds)) =
      (place position (pieces cs)).dropLast ++
        place (position.after (cs ++ ['\n'])) (pieces ds) := by
  fun_induction pieces cs generalizing position with
  | case1 => exact place_blank (by decide) position ds
  | case2 c rest ih =>
    rw [List.forall_mem_cons] at closed
    have split : rest.take (extent c rest).2 ++ (rest.drop (extent c rest).2 ++ '\n' :: ds) =
        rest ++ '\n' :: ds := by
      rw [← List.append_assoc, List.take_append_drop]
    have behind : (position.after (c :: rest.take (extent c rest).2)).after
        (rest.drop (extent c rest).2 ++ ['\n']) = position.after (c :: rest ++ ['\n']) := by
      rw [← Position.after_append]
      simp [← List.append_assoc]
    by_cases hb : Text.isBlank c = true
    · -- White space may go on behind the line feed, so no piece of it is cut off there.
      have shape : (extent c rest).1 = .blank := by rw [extent, if_pos hb]
      have joined := place_append_blank (isBlank_of_extent shape) position
        (rest.drop (extent c rest).2 ++ '\n' :: ds)
      rw [List.cons_append, split, ih _ closed.2, behind] at joined
      rw [List.cons_append, joined, place_none (by rw [Piece.content?, shape])]
    · have same := extent_append_blank (by decide) (by simpa using hb) closed.1 (fun _ => rfl) ds
      rw [List.cons_append, pieces, same, List.take_append_of_le_length (extent_le c rest),
        List.drop_append_of_le_length (extent_le c rest)]
      cases hc : Piece.content? ⟨(extent c rest).1, c :: rest.take (extent c rest).2⟩ with
      | none => rw [place_none hc, place_none hc, ih _ closed.2, behind]
      | some content =>
        rw [place_some hc, place_some hc, ih _ closed.2, behind,
          List.dropLast_cons_of_ne_nil (place_ne_nil _ _)]
        rfl

theorem exists_openQuote {p : Piece} {ps : List Piece} (hp : p ∈ ps) (h : p.shape = .openQuote)
    (position : Position) :
    ∃ t ∈ place position ps, ∃ quote, t.content = .invalid (.openQuote quote) := by
  have content : p.content? = some (.invalid (.openQuote (p.text.headD '"'))) := by
    rw [Piece.content?, h]
  induction ps generalizing position with
  | nil => cases hp
  | cons q ps ih =>
    rcases List.mem_cons.1 hp with rfl | hp
    · rw [place_some content]
      exact ⟨_, List.mem_cons_self .., _, rfl⟩
    · obtain ⟨t, ht, hq⟩ := ih hp (position.after q.text)
      refine ⟨t, ?_, hq⟩
      cases hc : q.content? with
      | none => rwa [place_none hc]
      | some content =>
        rw [place_some hc]
        exact List.mem_cons_of_mem _ ht

/--
The tokens of two texts with a line feed between them are those of the first text, unless it leaves
a quote open, and those of the second one further down.
-/
theorem tokenize_append_newline {s : String} {body : List Token} {stop : Token}
    (h : tokenize false s = body ++ [stop])
    (closed : ∀ t ∈ body, ∀ quote, t.content ≠ .invalid (.openQuote quote)) (t : String) :
    tokenize false (s ++ "\n" ++ t) =
      body ++ (tokenize false t).map (moved (.down (s.toList.count '\n' + 1))) := by
  obtain ⟨all, last, placed, hlast, -⟩ := exists_place .start (pieces s.toList)
  have hkept : last.isComment = false := by rw [isComment, hlast]
  rw [tokenize, placed, List.filter_append, List.filter_cons_of_pos (by simp [hkept])] at h
  obtain ⟨rfl, hstop⟩ := List.append_inj' h rfl
  have shut : ∀ p ∈ pieces s.toList, p.shape ≠ .openQuote := by
    intro p hp hshape
    obtain ⟨u, hu, quote, hq⟩ := exists_openQuote hp hshape .start
    rw [placed, List.mem_append, List.mem_singleton] at hu
    rcases hu with hu | rfl
    · refine closed u (List.mem_filter.2 ⟨hu, ?_⟩) quote hq
      rw [isComment, hq]
      rfl
    · rw [hlast] at hq
      cases hq
  have text : (s ++ "\n" ++ t).toList = s.toList ++ '\n' :: t.toList := by simp
  rw [tokenize, tokenize, text, place_append_newline _ _ _ shut, placed, List.dropLast_concat,
    Position.start_after_newline, place_down, List.filter_append, List.filter_map]
  rfl

end Token

end Worklog
