import Worklog.Proofs.Token.Joining

/-!
# Layout

What stands between the tokens of a text means nothing. A text is `Relaid` as another if the tokens
of the first are written there in their order, with gaps between them that may hold comments.
Each piece of a text is cut into itself (`pieces_of_mem`), and a gap ends it as it begins with white
space (`pieces_append_blank`), so the two texts have the same tokens at other positions
(`exists_moved_of_relaid`), also where tokens of the first text had no gap between them.
-/

namespace Worklog.Token

/-! ## Texts that are laid out otherwise -/

/-- White space and comments, with the line feeds that end them. -/
inductive Filler : List Char → Prop
  | nil : Filler []
  | blank {c : Char} {cs : List Char} (hc : Text.isBlank c = true) (rest : Filler cs) :
      Filler (c :: cs)
  | comment {body cs : List Char} (hb : '\n' ∉ body) (rest : Filler cs) :
      Filler ('/' :: '/' :: (body ++ '\n' :: cs))

/-- What separates tokens: white space, which comments may follow. -/
inductive Gap : List Char → Prop
  | mk {c : Char} {cs : List Char} (hc : Text.isBlank c = true) (rest : Filler cs) : Gap (c :: cs)

/--
The tokens are written one after the other with gaps between them. There may be one behind the last
of them, unless it is a quote that is not closed.
-/
inductive Laid : List Token → List Char → Prop
  | nil : Laid [] []
  | last (t : Token) : Laid [t] t.text.toList
  | cons {t : Token} {ts : List Token} {gap cs : List Char}
      (closed : ts = [] → ∀ quote, t.content ≠ .invalid (.openQuote quote)) (hg : Gap gap)
      (rest : Laid ts cs) : Laid (t :: ts) (t.text.toList ++ (gap ++ cs))

/-- The second text consists of the tokens of the first, be they laid out as they may. -/
def Relaid (s s' : String) : Prop :=
  ∃ lead cs, Filler lead ∧ Laid (tokenize false s).dropLast cs ∧ s'.toList = lead ++ cs

/-! ## A piece by itself -/

theorem runLength_take (p : Char → Bool) (cs : List Char) (n : Nat) :
    runLength p (cs.take n) = min n (runLength p cs) := by
  unfold runLength
  induction cs generalizing n with
  | nil => simp
  | cons c cs ih =>
    cases n with
    | zero => simp
    | succ n =>
      rw [List.take_succ_cons]
      by_cases hc : p c = true
      · rw [List.takeWhile_cons_of_pos hc, List.takeWhile_cons_of_pos hc]
        simp only [List.length_cons, ih]
        omega
      · simp [List.takeWhile_cons_of_neg hc]

theorem fractionLength_take (cs : List Char) :
    fractionLength (cs.take (fractionLength cs)) = fractionLength cs := by
  fun_cases fractionLength cs with
  | case1 c rest hc =>
    rw [Nat.add_comm 2, List.take_succ_cons, List.take_succ_cons, fractionLength, if_pos hc,
      runLength_take, Nat.min_self, Nat.add_comm]
  | case2 => rfl
  | case3 => rfl

theorem not_head?_take {P : Prop} {d : Char} {cs : List Char} (h : ¬ (P ∧ cs.head? = some d))
    {n : Nat} : ¬ (P ∧ (cs.take n).head? = some d) := by
  rintro ⟨hp, hd⟩
  rw [List.head?_take] at hd
  split at hd
  · cases hd
  · exact h ⟨hp, hd⟩

/-- A piece takes as much of itself as it takes of the text. -/
theorem extent_take (c : Char) (rest : List Char) :
    extent c (rest.take (extent c rest).2) = extent c rest := by
  fun_cases extent c rest with
  | case1 hb => rw [extent, if_pos hb, runLength_take, Nat.min_self]
  | case2 hb hc =>
    obtain ⟨rest, rfl⟩ := List.head?_eq_some_iff.1 hc.2
    have more : runLength (· != '\n') ('/' :: rest) ≠ 0 := by simp [runLength]
    have slash : c = '/' ∧ (List.take (runLength (· != '\n') ('/' :: rest)) ('/' :: rest)).head? =
        some '/' := by
      rw [List.head?_take, if_neg more]
      exact hc
    rw [extent, if_neg hb, if_pos slash, runLength_take, Nat.min_self]
  | case3 hb hc hq body h =>
    have inner : runLength (· != c) (rest.take (body + 1)) = body := by
      rw [runLength_take]
      omega
    have longer : body < (rest.take (body + 1)).length := by
      rw [List.length_take]
      omega
    rw [extent, if_neg hb, if_neg (not_head?_take hc), if_pos hq, inner, if_pos longer]
  | case4 hb hc hq body h =>
    rw [List.take_of_length_le (by omega), extent, if_neg hb, if_neg hc, if_pos hq, if_neg h]
  | case5 hb hc hq hd whole =>
    have inner : runLength Text.isDigit (rest.take (whole + fractionLength (rest.drop whole))) =
        whole := by
      rw [runLength_take]
      omega
    have fraction : (rest.take (whole + fractionLength (rest.drop whole))).drop whole =
        (rest.drop whole).take (fractionLength (rest.drop whole)) := by
      rw [List.drop_take, Nat.add_sub_cancel_left]
    rw [extent, if_neg hb, if_neg (not_head?_take hc), if_neg hq, if_pos hd, inner]
    simp only [fraction, fractionLength_take]
  | case6 hb hc hq hd ho =>
    rw [extent, if_neg hb, if_neg (not_head?_take hc), if_neg hq, if_neg hd, if_pos ho]
    split
    · rename_i he
      obtain ⟨rest, rfl⟩ := List.head?_eq_some_iff.1 he
      rfl
    · rfl
  | case7 hb hc hq hd ho he =>
    obtain ⟨rest, rfl⟩ := List.head?_eq_some_iff.1 he.2
    rw [extent, if_neg hb, if_neg (not_head?_take hc), if_neg hq, if_neg hd, if_neg ho,
      if_pos ⟨he.1, rfl⟩]
  | case8 hb hc hq hd ho he hm =>
    rw [extent, if_neg hb, if_neg (not_head?_take hc), if_neg hq, if_neg hd, if_neg ho,
      if_neg (not_head?_take he), if_pos hm]
  | case9 hb hc hq hd ho he hm hw =>
    rw [extent, if_neg hb, if_neg (not_head?_take hc), if_neg hq, if_neg hd, if_neg ho,
      if_neg (not_head?_take he), if_neg hm, if_pos hw, runLength_take, Nat.min_self]
  | case10 hb hc hq hd ho he hm hw =>
    rw [extent, if_neg hb, if_neg (not_head?_take hc), if_neg hq, if_neg hd, if_neg ho,
      if_neg (not_head?_take he), if_neg hm, if_neg hw]

/-- A piece of a text is cut into itself. -/
theorem pieces_of_mem {cs : List Char} : ∀ p ∈ pieces cs, pieces p.text = [p] := by
  fun_induction pieces cs with
  | case1 => simp
  | case2 c rest ih =>
    rw [List.forall_mem_cons]
    refine ⟨?_, ih⟩
    have none : (rest.take (extent c rest).2).drop (extent c rest).2 = [] :=
      List.drop_take_self ..
    rw [pieces, extent_take, List.take_take, Nat.min_self, none, pieces]

theorem length_of_openQuote {c : Char} {rest : List Char} (h : (extent c rest).1 = .openQuote) :
    (extent c rest).2 = rest.length := by
  have le := extent_le c rest
  revert h le
  fun_cases extent c rest with
  | case4 _ _ _ body h =>
    intro _ le
    exact Nat.le_antisymm le (Nat.le_of_not_lt h)
  | _ =>
    intro h
    cases h

/-- A quote that is not closed takes all that follows it. -/
theorem pairwise_pieces (cs : List Char) :
    (pieces cs).Pairwise fun p _ => p.shape ≠ .openQuote := by
  fun_induction pieces cs with
  | case1 => exact .nil
  | case2 c rest ih =>
    refine List.pairwise_cons.2 ⟨fun q hq hs => ?_, ih⟩
    rw [length_of_openQuote hs, List.drop_length, pieces] at hq
    cases hq

/-- A piece that is cut into itself is cut off where white space follows. -/
theorem pieces_append_blank {w : Char} (hw : Text.isBlank w = true) {p : Piece}
    (alone : pieces p.text = [p]) (solid : p.shape ≠ .blank) (closed : p.shape ≠ .openQuote)
    (line : p.shape = .comment → w = '\n') (ys : List Char) :
    pieces (p.text ++ w :: ys) = p :: pieces (w :: ys) := by
  obtain ⟨shape, text⟩ := p
  cases text with
  | nil =>
    rw [pieces] at alone
    cases alone
  | cons c rest =>
    rw [pieces] at alone
    obtain ⟨rfl, taken⟩ := Piece.mk.inj (List.cons.inj alone).1
    have whole : (extent c rest).2 = rest.length := by
      have long := congrArg List.length (List.cons.inj taken).2
      have le := extent_le c rest
      rw [List.length_take] at long
      omega
    have hb : Text.isBlank c = false := by
      by_contra hb
      exact solid (by rw [extent, if_pos (by simpa using hb)])
    rw [List.cons_append, pieces, extent_append_blank hw hb closed line, whole, List.take_left,
      List.drop_left]

/-! ## The words of a text -/

/-- What a token is and what is written, wherever it stands. -/
def wording (t : Token) : Content × String :=
  (t.content, t.text)

/-- The words of a piece; white space and comments have none. -/
def Piece.wording? (p : Piece) : Option (Content × String) :=
  match p.content? with
  | none | some (.comment _) => none
  | some content => some (content, String.ofList p.text)

/-- The words of a text are those of its pieces. -/
def wordings (cs : List Char) : List (Content × String) :=
  (pieces cs).filterMap Piece.wording?

theorem wording_place (position : Position) (ps : List Piece) :
    ((place position ps).filter fun t => !t.isComment).map wording =
      ps.filterMap Piece.wording? ++ [(.stop, "")] := by
  induction ps generalizing position with
  | nil => rfl
  | cons p ps ih =>
    cases hc : p.content? with
    | none =>
      have silent : p.wording? = none := by rw [Piece.wording?, hc]
      rw [place_none hc, ih, List.filterMap_cons_none silent]
    | some content =>
      rw [place_some hc]
      by_cases comment : ∃ text, content = .comment text
      · obtain ⟨text, rfl⟩ := comment
        have silent : p.wording? = none := by rw [Piece.wording?, hc]
        rw [List.filterMap_cons_none silent]
        exact ih _
      · have word : p.wording? = some (content, String.ofList p.text) := by
          rw [Piece.wording?, hc]
          split
          · rename_i h
            cases h
          · rename_i text h
            exact absurd ⟨text, Option.some.inj h⟩ comment
          · rename_i h
            rw [Option.some.inj h]
        have kept : isComment ⟨content, String.ofList p.text, position⟩ = false := by
          unfold isComment
          split
          · rename_i text h
            exact absurd ⟨text, h⟩ comment
          · rfl
        rw [List.filterMap_cons_some word, List.filter_cons_of_pos (by rw [kept]; rfl),
          List.map_cons, ih]
        rfl

theorem wording_tokenize (s : String) :
    (tokenize false s).map wording = wordings s.toList ++ [(.stop, "")] :=
  wording_place .start (pieces s.toList)

theorem wording_dropLast_tokenize (s : String) :
    (tokenize false s).dropLast.map wording = wordings s.toList := by
  rw [List.map_dropLast, wording_tokenize, List.dropLast_concat]

theorem wordings_blank {c : Char} (hc : Text.isBlank c = true) (cs : List Char) :
    wordings (c :: cs) = wordings cs := by
  have moved := wording_place .start (pieces (c :: cs))
  rw [place_blank hc, wording_place] at moved
  exact (List.append_cancel_right moved).symm

theorem wordings_comment {body : List Char} (hb : '\n' ∉ body) (cs : List Char) :
    wordings ('/' :: '/' :: (body ++ '\n' :: cs)) = wordings cs := by
  have line : ('/' :: body).takeWhile (· != '\n') = '/' :: body := by
    rw [List.takeWhile_eq_self_iff]
    intro c hc
    rw [bne_iff_ne]
    rintro rfl
    rcases List.mem_cons.1 hc with h | h
    · exact absurd h (by decide)
    · exact hb h
  let p : Piece := ⟨.comment, '/' :: '/' :: body⟩
  have alone : pieces p.text = [p] := by
    have extent_eq : extent '/' ('/' :: body) = (.comment, ('/' :: body).length) := by
      rw [extent, if_neg (by decide), if_pos ⟨rfl, rfl⟩, runLength, line]
    rw [pieces, extent_eq, List.take_length, List.drop_length, pieces]
  have cut := pieces_append_blank (by decide) alone (by simp [p]) (by simp [p]) (fun _ => rfl) cs
  have whole : wordings (p.text ++ '\n' :: cs) = wordings ('\n' :: cs) := by
    rw [wordings, cut]
    rfl
  exact whole.trans (wordings_blank (by decide) cs)

theorem Filler.wordings_append {fs : List Char} (h : Filler fs) (cs : List Char) :
    wordings (fs ++ cs) = wordings cs := by
  induction h with
  | nil => rfl
  | blank hc rest ih => exact (wordings_blank hc _).trans ih
  | @comment body fs hb rest ih =>
    have split : '/' :: '/' :: (body ++ '\n' :: fs) ++ cs =
        '/' :: '/' :: (body ++ '\n' :: (fs ++ cs)) := by simp
    rw [split]
    exact (wordings_comment hb _).trans ih

/-! ## Tokens that are laid out -/

/-- The piece is cut into itself, and has these words. -/
structure Piece.Worded (p : Piece) (word : Content × String) : Prop where
  alone : pieces p.text = [p]
  wording_eq : p.wording? = some word

namespace Piece.Worded

variable {p : Piece} {word : Content × String}

theorem text_eq (h : p.Worded word) : word.2.toList = p.text := by
  have word := h.wording_eq
  unfold wording? at word
  split at word
  · cases word
  · cases word
  · cases word
    exact String.toList_ofList

theorem shape_ne_blank (h : p.Worded word) : p.shape ≠ .blank := by
  intro hs
  have word := h.wording_eq
  rw [wording?, content?, hs] at word
  cases word

theorem shape_ne_comment (h : p.Worded word) : p.shape ≠ .comment := by
  intro hs
  have word := h.wording_eq
  rw [wording?, content?, hs] at word
  cases word

theorem content_of_openQuote (h : p.Worded word) (hs : p.shape = .openQuote) :
    ∃ quote, word.1 = .invalid (.openQuote quote) := by
  have word := h.wording_eq
  rw [wording?, content?, hs] at word
  cases word
  exact ⟨_, rfl⟩

theorem wordings_eq (h : p.Worded word) : wordings p.text = [word] := by
  rw [wordings, h.alone, List.filterMap_cons_some h.wording_eq, List.filterMap_nil]

theorem wordings_append (h : p.Worded word) (closed : p.shape ≠ .openQuote) {w : Char}
    (hw : Text.isBlank w = true) (cs : List Char) :
    wordings (p.text ++ w :: cs) = word :: wordings (w :: cs) := by
  have line : p.shape = .comment → w = '\n' := fun hs => absurd hs h.shape_ne_comment
  rw [wordings, pieces_append_blank hw h.alone h.shape_ne_blank closed line,
    List.filterMap_cons_some h.wording_eq]
  rfl

end Piece.Worded

theorem exists_worded {cs : List Char} {word : Content × String}
    (h : word ∈ wordings cs) : ∃ p : Piece, p.Worded word := by
  obtain ⟨p, hp, hs⟩ := List.mem_filterMap.1 h
  exact ⟨p, pieces_of_mem p hp, hs⟩

theorem shape_of_openQuote {p : Piece} {quote : Char}
    (h : p.content? = some (.invalid (.openQuote quote))) : p.shape = .openQuote := by
  unfold Piece.content? at h
  split at h
  case h_4 hs => exact hs
  case h_8 =>
    unfold wordContent at h
    split at h <;> cases h
  all_goals cases h

/-- Only the last token is a quote that is not closed. -/
theorem pairwise_wordings (cs : List Char) :
    (wordings cs).Pairwise fun word _ => ∀ quote, word.1 ≠ .invalid (.openQuote quote) := by
  refine List.pairwise_filterMap.2 ((pairwise_pieces cs).imp fun {p _} closed word hp _ _ => ?_)
  intro quote hq
  unfold Piece.wording? at hp
  split at hp
  · cases hp
  · cases hp
  · rename_i content hc
    obtain rfl := Option.some.inj hp
    exact closed (shape_of_openQuote (hc.trans (congrArg some hq)))

/-- The words of tokens that are laid out are theirs. -/
theorem wordings_laid {ts : List Token} {cs : List Char} (h : Laid ts cs)
    (worded : ∀ t ∈ ts, ∃ p : Piece, p.Worded t.wording)
    (shut : ts.Pairwise fun t _ => ∀ quote, t.content ≠ .invalid (.openQuote quote)) :
    wordings cs = ts.map wording := by
  induction h with
  | nil => simp [wordings, pieces]
  | last t =>
    obtain ⟨p, hp⟩ := worded t (List.mem_singleton_self t)
    rw [show t.text.toList = p.text from hp.text_eq, hp.wordings_eq]
    rfl
  | @cons t ts gap cs closed hg rest ih =>
    rw [List.forall_mem_cons] at worded
    rw [List.pairwise_cons] at shut
    obtain ⟨⟨p, hp⟩, worded⟩ := worded
    have ne : p.shape ≠ .openQuote := by
      intro hs
      obtain ⟨quote, hq⟩ := hp.content_of_openQuote hs
      cases ts with
      | nil => exact closed rfl quote hq
      | cons u ts => exact shut.1 u (List.mem_cons_self ..) quote hq
    obtain @⟨w, fs, hw, filler⟩ := hg
    rw [show t.text.toList = p.text from hp.text_eq, List.cons_append, hp.wordings_append ne hw,
      wordings_blank hw, filler.wordings_append, ih worded shut.2]
    rfl

theorem wording_relaid {s s' : String} (h : Relaid s s') :
    (tokenize false s').map wording = (tokenize false s).map wording := by
  obtain ⟨lead, cs, hlead, laid, hs'⟩ := h
  have words := wording_dropLast_tokenize s
  have worded : ∀ t ∈ (tokenize false s).dropLast, ∃ p : Piece, p.Worded t.wording := by
    intro t ht
    have mem : t.wording ∈ wordings s.toList := words ▸ List.mem_map_of_mem ht
    exact exists_worded mem
  have shut := pairwise_wordings s.toList
  rw [← words, List.pairwise_map] at shut
  rw [wording_tokenize, wording_tokenize, hs', hlead.wordings_append,
    wordings_laid laid worded shut, words]

/-! ## The same tokens elsewhere -/

/-- Tokens with the words of others, which stand at different positions, are those, moved. -/
theorem exists_moved {ts ts' : List Token} (h : ts'.map wording = ts.map wording)
    (distinct : ts.Pairwise fun t u => t.position ≠ u.position) :
    ∃ f : Position → Position, ts' = ts.map (moved f) := by
  induction ts generalizing ts' with
  | nil => exact ⟨id, List.map_eq_nil_iff.1 h⟩
  | cons t ts ih =>
    obtain ⟨t', us, rfl, ht, hts⟩ := List.map_eq_cons_iff.1 h
    rw [List.pairwise_cons] at distinct
    obtain ⟨f, rfl⟩ := ih hts distinct.2
    refine ⟨Function.update f t.position t'.position, ?_⟩
    obtain ⟨content_eq, text_eq⟩ := Prod.mk.inj ht
    rw [List.map_cons]
    congr 1
    · simp [moved, Function.update_self, ← content_eq, ← text_eq]
    · refine List.map_congr_left fun u hu => ?_
      rw [moved, moved, Function.update_of_ne (distinct.1 u hu).symm]

theorem exists_moved_of_relaid {s s' : String} (h : Relaid s s') :
    ∃ f : Position → Position, tokenize false s' = (tokenize false s).map (moved f) :=
  exists_moved (wording_relaid h) ((pairwise_before_tokenize false s).imp Position.Before.ne)

end Worklog.Token
