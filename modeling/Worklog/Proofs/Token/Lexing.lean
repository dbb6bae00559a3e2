import Worklog.Text.Lower
import Worklog.Token.Lexer

/-!
# The tokens of a text

The form of the tokens that a text is cut into. The end of the text stands last and nowhere else,
and identifiers are in lower case (`exists_canonical_tokenize`); the operators are those that are
written with signs, never the word of ranges (`ne_between_of_mem_tokenize`). Both follow from what
each piece of a text looks like (`Piece.Shaped`), which is settled where the piece begins.
-/

namespace Worklog.Token

/--
Tokens as a text without comments is cut into them: the end stands last and nowhere else, and
identifiers no longer depend on letter case.
-/
structure Canonical (body : List Token) (stop : Token) : Prop where
  stop_content : stop.content = .stop
  ne_stop : ∀ t ∈ body, t.content ≠ .stop
  not_comment : ∀ t ∈ body, t.isComment = false
  lower_eq : ∀ t ∈ body, ∀ name, t.content = .identifier name → Text.lower name = name

/-! ## Pieces -/

/-- The signs of the operators. -/
def signs : List String := ["<", "<=", ">", ">=", "=", "==", "!="]

/-- The characters of a piece are those of its shape. -/
def Piece.Shaped (p : Piece) : Prop :=
  (p.shape = .word → ∀ c ∈ p.text, continuesWord c = true) ∧
    (p.shape = .operator → String.ofList p.text ∈ signs)

theorem continuesWord_of_beginsWord {c : Char} (h : beginsWord c = true) :
    continuesWord c = true := by
  simp only [beginsWord, continuesWord, Char.isAlphanum, Bool.or_eq_true] at h ⊢
  rcases h with h | h
  · exact .inl (.inl (.inl h))
  · exact .inl (.inr h)

theorem take_runLength (p : Char → Bool) (cs : List Char) :
    cs.take (runLength p cs) = cs.takeWhile p :=
  (List.prefix_iff_eq_take.1 (List.takeWhile_prefix p)).symm

theorem forall_mem_takeWhile (p : Char → Bool) (cs : List Char) :
    ∀ c ∈ cs.takeWhile p, p c = true := by
  rw [← List.all_eq_true]
  exact List.all_takeWhile

/-- A piece of another shape than those of words and operators has nothing to show. -/
theorem Piece.Shaped.of_ne {p : Piece} (hw : p.shape ≠ .word) (ho : p.shape ≠ .operator) :
    p.Shaped :=
  ⟨fun h => absurd h hw, fun h => absurd h ho⟩

theorem shaped_word {c : Char} (h : beginsWord c = true) (rest : List Char) :
    Piece.Shaped ⟨.word, c :: rest.take (runLength continuesWord rest)⟩ := by
  refine ⟨fun _ => ?_, nofun⟩
  rw [take_runLength, List.forall_mem_cons]
  exact ⟨continuesWord_of_beginsWord h, forall_mem_takeWhile _ _⟩

theorem shaped_operator {c : Char} (h : c = '<' ∨ c = '>' ∨ c = '=') (rest : List Char) :
    Piece.Shaped ⟨.operator, c :: rest.take (if rest.head? = some '=' then 1 else 0)⟩ := by
  refine ⟨nofun, fun _ => ?_⟩
  rcases rest with _ | ⟨d, rest⟩
  · rcases h with rfl | rfl | rfl <;> decide
  · by_cases hd : d = '='
    · subst hd
      rcases h with rfl | rfl | rfl <;> simp [signs]
    · rcases h with rfl | rfl | rfl <;> simp [signs, hd]

/-- The piece that begins with a character is one of its shape. -/
theorem shaped_extent (c : Char) (rest : List Char) :
    Piece.Shaped ⟨(extent c rest).1, c :: rest.take (extent c rest).2⟩ := by
  fun_cases extent c rest with
  | case6 _ _ _ _ h => exact shaped_operator h rest
  | case7 _ _ _ _ _ h =>
    obtain ⟨rfl, hr⟩ := h
    obtain ⟨rest, rfl⟩ := List.head?_eq_some_iff.1 hr
    exact ⟨nofun, fun _ => by simp [signs]⟩
  | case9 _ _ _ _ _ _ _ h => exact shaped_word h rest
  | _ => exact .of_ne (by simp) (by simp)

theorem shaped_of_mem_pieces {cs : List Char} : ∀ p ∈ pieces cs, p.Shaped := by
  fun_induction pieces cs with
  | case1 => simp
  | case2 c rest ih =>
    rw [List.forall_mem_cons]
    exact ⟨shaped_extent c rest, ih⟩

/-! ## Tokens -/

theorem content_ne_stop_of_piece {p : Piece} {content : Content} (h : p.content? = some content) :
    content ≠ .stop := by
  rintro rfl
  unfold Piece.content? at h
  split at h
  case h_8 =>
    unfold wordContent at h
    split at h <;> cases h
  all_goals cases h

theorem toNat_lt_of_continuesWord {c : Char} (h : continuesWord c = true) : c.toNat < 0x80 := by
  change (decide ('A'.val ≤ c.val ∧ c.val ≤ 'Z'.val) || ('a'.val ≤ c.val && c.val ≤ 'z'.val) ||
    ('0'.val ≤ c.val && c.val ≤ '9'.val) || c == '_' || c == '-') = true at h
  simp only [Bool.or_eq_true, Bool.and_eq_true, decide_eq_true_eq, beq_iff_eq,
    UInt32.le_iff_toNat_le] at h
  have hc : c.toNat = c.val.toNat := rfl
  have hZ : 'Z'.val.toNat = 90 := rfl
  have hz : 'z'.val.toNat = 122 := rfl
  have h9 : '9'.val.toNat = 57 := rfl
  rcases h with (h | rfl) | rfl
  · omega
  · decide
  · decide

/-- What holds of each character of ASCII. -/
theorem forall_ascii {P : Char → Prop} (h : ∀ n < 0x80, P (Char.ofNat n)) (c : Char)
    (hc : c.toNat < 0x80) : P c := by
  simpa using h c.toNat hc

theorem toLower_toLower_of_lt {c : Char} (h : c.toNat < 0x80) :
    c.toLower.toLower = c.toLower ∧ c.toLower.toNat < 0x80 := by
  have all : ∀ c : Char, c.toNat < 0x80 →
      c.toLower.toLower = c.toLower ∧ c.toLower.toNat < 0x80 := forall_ascii (by decide)
  exact all c h

theorem lowerIn_of_lt {c : Char} (h : c.toNat < 0x80) (before after : List Char) :
    Text.lowerIn before c after = [c.toLower] := by
  unfold Text.lowerIn Text.lowerSimple
  have hs : c ≠ 'Σ' := by rintro rfl; revert h; decide
  have hi : c ≠ 'İ' := by rintro rfl; revert h; decide
  rw [if_neg hs, if_neg hi, if_pos h]

/-- Text in lower case is its own lower-case form, as long as it is in ASCII. -/
theorem lowerAfter_map_toLower {cs : List Char} (h : ∀ c ∈ cs, c.toNat < 0x80)
    (before : List Char) : Text.lowerAfter before (cs.map Char.toLower) = cs.map Char.toLower := by
  induction cs generalizing before with
  | nil => rfl
  | cons c cs ih =>
    rw [List.forall_mem_cons] at h
    have hc := toLower_toLower_of_lt h.1
    rw [List.map_cons, Text.lowerAfter, lowerIn_of_lt hc.2, hc.1, ih h.2]
    rfl

/-- An identifier no longer depends on letter case. -/
theorem lower_eq_of_piece {p : Piece} (hp : p.Shaped) {name : String}
    (h : p.content? = some (.identifier name)) : Text.lower name = name := by
  unfold Piece.content? at h
  split at h
  case h_8 hw =>
    unfold wordContent at h
    split at h
    · cases h
    · cases h
      have ascii : ∀ c ∈ p.text, c.toNat < 0x80 := fun c hc =>
        toNat_lt_of_continuesWord (hp.1 hw c hc)
      rw [Text.lower, String.toList_ofList, lowerAfter_map_toLower ascii]
  all_goals cases h

theorem ofSpelling_ne_between {s : String} (h : s ∈ signs) :
    Operator.ofSpelling s ≠ .between := by
  revert s
  decide

/-- The operator of a piece is written with signs. -/
theorem ne_between_of_piece {p : Piece} (hp : p.Shaped) {op : Operator}
    (h : p.content? = some (.operator op)) : op ≠ .between := by
  unfold Piece.content? at h
  split at h
  case h_6 ho =>
    cases h
    exact ofSpelling_ne_between (hp.2 ho)
  case h_8 =>
    unfold wordContent at h
    split at h <;> cases h
  all_goals cases h

/-- Placing pieces gives a token for each that becomes one, and then the end of the text. -/
theorem exists_place (position : Position) (ps : List Piece) :
    ∃ body stop, place position ps = body ++ [stop] ∧ stop.content = .stop ∧
      ∀ t ∈ body, ∃ p ∈ ps, p.content? = some t.content := by
  induction ps generalizing position with
  | nil => exact ⟨[], _, rfl, rfl, by simp⟩
  | cons p ps ih =>
    obtain ⟨body, stop, hps, hstop, hbody⟩ := ih (position.after p.text)
    have later : ∀ t ∈ body, ∃ q ∈ p :: ps, q.content? = some t.content := by
      intro t ht
      obtain ⟨q, hq, hc⟩ := hbody t ht
      exact ⟨q, List.mem_cons_of_mem _ hq, hc⟩
    unfold place
    split
    · rename_i content hc
      refine ⟨_ :: body, stop, by rw [hps]; rfl, hstop, ?_⟩
      rw [List.forall_mem_cons]
      exact ⟨⟨p, List.mem_cons_self .., hc⟩, later⟩
    · exact ⟨body, stop, hps, hstop, later⟩

/-- Without its comments, a text is cut into canonical tokens. -/
theorem exists_canonical_tokenize (s : String) :
    ∃ body stop, tokenize false s = body ++ [stop] ∧ Canonical body stop := by
  obtain ⟨body, stop, hps, hstop, hbody⟩ := exists_place .start (pieces s.toList)
  have hs : stop.isComment = false := by simp [isComment, hstop]
  refine ⟨body.filter fun t => !t.isComment, stop, by simp [tokenize, hps, hs], hstop, ?_, ?_, ?_⟩
  · intro t ht
    obtain ⟨p, _, hc⟩ := hbody t ((List.mem_filter.1 ht).1)
    exact content_ne_stop_of_piece hc
  · intro t ht
    simpa using (List.mem_filter.1 ht).2
  · intro t ht name hn
    obtain ⟨p, hp, hc⟩ := hbody t ((List.mem_filter.1 ht).1)
    exact lower_eq_of_piece (shaped_of_mem_pieces p hp) (hn ▸ hc)

/-- Every token before the end is a piece of the text. -/
theorem exists_piece_of_mem_tokenize {keepComments : Bool} {s : String} {t : Token}
    (ht : t ∈ tokenize keepComments s) (h : t.content ≠ .stop) :
    ∃ p ∈ pieces s.toList, p.content? = some t.content := by
  obtain ⟨body, stop, hps, hstop, hbody⟩ := exists_place .start (pieces s.toList)
  have hmem := (List.mem_filter.1 ht).1
  rw [hps, List.mem_append, List.mem_singleton] at hmem
  rcases hmem with hmem | rfl
  · exact hbody t hmem
  · exact absurd hstop h

/-- No operator of a text is that of ranges. -/
theorem ne_between_of_mem_tokenize {keepComments : Bool} {s : String} {t : Token}
    (ht : t ∈ tokenize keepComments s) {op : Operator} (h : t.content = .operator op) :
    op ≠ .between := by
  obtain ⟨p, hp, hc⟩ := exists_piece_of_mem_tokenize ht (by simp [h])
  exact ne_between_of_piece (shaped_of_mem_pieces p hp) (h ▸ hc)

end Worklog.Token
