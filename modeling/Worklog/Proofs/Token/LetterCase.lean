import Mathlib.Data.List.Forall2
import Worklog.Proofs.Token.Joining

/-!
# Letter case

A text is `Recased` as another if they differ only in the case of letters in words and comments of
the first. No class of characters tells the cases of a letter apart (`Caseless`), so both texts are
cut into pieces of the same shapes and lengths, which are the same text but for words and comments
(`recased_pieces`). The content of a word does not depend on case, and comments are left out: the
texts have the same tokens at the same positions (`respelled_tokenize`), each in its own spelling.
-/

namespace Worklog.Token

/-! ## Texts in another letter case -/

/-- The token is a word or a comment. -/
def ignoresCase (t : Token) : Bool :=
  match t.content with
  | .keyword _ | .identifier _ | .comment _ => true
  | _ => false

/-- The token stands in the text where the character at the offset is one of its own. -/
def Covers (t : Token) (cs : List Char) (i : Nat) : Prop :=
  ∃ n ≤ i, t.position = .ofOffset cs n ∧ i < n + t.text.length

instance (t : Token) (cs : List Char) (i : Nat) : Decidable (t.Covers cs i) :=
  inferInstanceAs (Decidable (∃ n ≤ i, _))

/-- The character at the offset is one of a word or a comment of the text. -/
def IgnoresCaseAt (s : String) (i : Nat) : Prop :=
  ∃ t ∈ tokenize true s, t.ignoresCase = true ∧ t.Covers s.toList i

instance (s : String) (i : Nat) : Decidable (IgnoresCaseAt s i) :=
  inferInstanceAs (Decidable (∃ t ∈ tokenize true s, _))

/--
The texts are equally long, and differ only in the case of letters in words and comments of the
first. Letters are those of ASCII, as `Char.toLower` changes no others.
-/
structure Recased (s s' : String) : Prop where
  length_eq : s'.toList.length = s.toList.length
  same_or : ∀ i (h : i < s.toList.length), s'.toList[i] = s.toList[i] ∨
    s'.toList[i].toLower = s.toList[i].toLower ∧ IgnoresCaseAt s i

/-! ## Classes of characters -/

/-- The characters are the same but for letter case. -/
def SameLetter (c c' : Char) : Prop :=
  c'.toLower = c.toLower

/-- The function does not depend on letter case. -/
def Caseless {α : Type} (f : Char → α) : Prop :=
  ∀ c, f c.toLower = f c

theorem toLower_of_le {c : Char} (h : 0x80 ≤ c.toNat) : c.toLower = c := by
  unfold Char.toLower
  split
  · rename_i upper
    have le : c.toNat ≤ 90 := upper.2
    omega
  · rfl

namespace Caseless

variable {α : Type} {f : Char → α} {c c' : Char}

/-- Only the letters of ASCII have to be looked at. -/
theorem of_ascii (h : ∀ n < 0x80, f (Char.ofNat n).toLower = f (Char.ofNat n)) :
    Caseless f := by
  intro c
  by_cases hc : c.toNat < 0x80
  · exact forall_ascii (P := fun c => f c.toLower = f c) h c hc
  · rw [toLower_of_le (by omega)]

theorem eq (h : Caseless f) (hc : SameLetter c c') : f c' = f c := by
  rw [← h, hc, h]

theorem iff {d : Char} (h : Caseless (· == d)) (hc : SameLetter c c') : c' = d ↔ c = d := by
  have eq := h.eq hc
  rw [Bool.eq_iff_iff, beq_iff_eq, beq_iff_eq] at eq
  exact eq

theorem isBlank : Caseless Text.isBlank := .of_ascii (by decide)

theorem isDigit : Caseless Text.isDigit := .of_ascii (by decide)

theorem beginsWord : Caseless beginsWord := .of_ascii (by decide)

theorem continuesWord : Caseless continuesWord := .of_ascii (by decide)

theorem toUpper : Caseless Char.toUpper := .of_ascii (by decide)

end Caseless

/-! ## Pieces in another letter case -/

variable {cs cs' : List Char}

theorem runLength_recased {p : Char → Bool} (hp : Caseless p)
    (h : List.Forall₂ SameLetter cs cs') : runLength p cs' = runLength p cs := by
  unfold runLength
  induction h with
  | nil => rfl
  | @cons c c' cs cs' hc _ ih =>
    rw [List.takeWhile_cons, List.takeWhile_cons, hp.eq hc]
    split
    · rw [List.length_cons, List.length_cons, ih]
    · rfl

theorem fractionLength_recased (h : List.Forall₂ SameLetter cs cs') :
    fractionLength cs' = fractionLength cs := by
  cases h with
  | nil => rfl
  | @cons c c' cs cs' hc tail =>
    have point : c' = '.' ↔ c = '.' := Caseless.iff (.of_ascii (by decide)) hc
    by_cases hp : c = '.'
    · obtain rfl := point.2 hp
      subst hp
      cases tail with
      | nil => rfl
      | cons hd tail =>
        rw [fractionLength, fractionLength, Caseless.isDigit.eq hd,
          runLength_recased .isDigit tail]
    · rw [fractionLength_of_ne hp, fractionLength_of_ne (mt point.1 hp)]

theorem head?_recased (h : List.Forall₂ SameLetter cs cs') {d : Char} (hd : Caseless (· == d)) :
    cs'.head? = some d ↔ cs.head? = some d := by
  cases h with
  | nil => rfl
  | cons hc _ => simpa using hd.iff hc

theorem extent_recased {c c' : Char} (hc : SameLetter c c') {rest rest' : List Char}
    (h : List.Forall₂ SameLetter rest rest') : extent c' rest' = extent c rest := by
  have mark (d : Char) (hd : Caseless (· == d)) : c' = d ↔ c = d := hd.iff hc
  have double : c' = '"' ↔ c = '"' := mark _ (.of_ascii (by decide))
  have single : c' = '\'' ↔ c = '\'' := mark _ (.of_ascii (by decide))
  have body (hq : c = '"' ∨ c = '\'') :
      runLength (· != c') rest' = runLength (· != c) rest := by
    rcases hq with hq | hq
    · rw [double.2 hq, hq]
      exact runLength_recased (.of_ascii (by decide)) h
    · rw [single.2 hq, hq]
      exact runLength_recased (.of_ascii (by decide)) h
  have fraction (n : Nat) : fractionLength (rest'.drop n) = fractionLength (rest.drop n) :=
    fractionLength_recased (List.forall₂_drop n h)
  unfold extent
  simp only [Caseless.isBlank.eq hc, Caseless.isDigit.eq hc, Caseless.beginsWord.eq hc, double,
    single, mark '/' (.of_ascii (by decide)), mark '<' (.of_ascii (by decide)),
    mark '>' (.of_ascii (by decide)), mark '=' (.of_ascii (by decide)),
    mark '!' (.of_ascii (by decide)), mark ',' (.of_ascii (by decide)),
    head?_recased (d := '/') h (.of_ascii (by decide)),
    head?_recased (d := '=') h (.of_ascii (by decide)), runLength_recased .isBlank h,
    runLength_recased .isDigit h, runLength_recased .continuesWord h,
    runLength_recased (p := (· != '\n')) (.of_ascii (by decide)) h, fraction]
  by_cases hq : c = '"' ∨ c = '\''
  · simp only [if_pos hq, body hq, h.length_eq]
  · simp only [if_neg hq]

/-- The pieces have the same shape and differ at most in letter case, as words and comments may. -/
structure Piece.Recased (p p' : Piece) : Prop where
  shape_eq : p'.shape = p.shape
  letters : List.Forall₂ SameLetter p.text p'.text
  text_eq : p.shape ≠ .word → p.shape ≠ .comment → p'.text = p.text

/--
If texts differ in letter case at some offsets only, none of which is in a piece of another shape
than those of words and comments, their pieces do so.
-/
theorem recased_pieces (changes : Nat → Prop) (h : List.Forall₂ SameLetter cs cs')
    (same_or : ∀ i, cs'[i]? = cs[i]? ∨ changes i)
    (kept : ∀ before p after, pieces cs = before ++ p :: after → p.shape ≠ .word →
      p.shape ≠ .comment → ∀ i < p.text.length,
        ¬ changes ((before.flatMap Piece.text).length + i)) :
    List.Forall₂ Piece.Recased (pieces cs) (pieces cs') := by
  fun_induction pieces cs generalizing cs' changes with
  | case1 =>
    cases h
    rw [pieces]
    exact .nil
  | case2 c rest ih =>
    cases h with
    | @cons _ c' _ rest' hc tail =>
      have le := extent_le c rest
      have length : (c :: rest.take (extent c rest).2).length = (extent c rest).2 + 1 := by
        rw [List.length_cons, List.length_take, Nat.min_eq_left le]
      rw [pieces, extent_recased hc tail]
      refine .cons ⟨rfl, .cons hc (List.forall₂_take _ tail), fun hw hm => ?_⟩ ?_
      · refine List.ext_getElem? fun i => ?_
        rw [← List.take_succ_cons, ← List.take_succ_cons, List.getElem?_take, List.getElem?_take]
        split
        · rename_i hi
          refine (same_or i).resolve_right ?_
          have none := kept [] _ _ rfl hw hm i (by rwa [length])
          simpa using none
        · rfl
      · -- What changes behind the first piece is counted from its end.
        have later (i : Nat) : (rest'.drop (extent c rest).2)[i]? =
            (rest.drop (extent c rest).2)[i]? ∨ changes ((extent c rest).2 + 1 + i) := by
          have here := same_or ((extent c rest).2 + i + 1)
          rw [List.getElem?_cons_succ, List.getElem?_cons_succ, Nat.add_right_comm] at here
          rwa [List.getElem?_drop, List.getElem?_drop]
        refine ih _ (List.forall₂_drop _ tail) later fun before p after split hw hm i hi => ?_
        have none := kept (_ :: before) p after (congrArg _ split) hw hm i hi
        rwa [List.flatMap_cons, List.length_append, length, Nat.add_assoc] at none

/-! ## Where the words of a text stand -/

theorem exists_split_of_mem_place {ps : List Piece} {position : Position} {t : Token}
    (ht : t ∈ place position ps) (h : t.content ≠ .stop) :
    ∃ before p after, ps = before ++ p :: after ∧ p.content? = some t.content ∧
      t.text.length = p.text.length ∧ t.position = position.after (before.flatMap Piece.text) := by
  induction ps generalizing position with
  | nil =>
    rw [place, List.mem_singleton] at ht
    subst ht
    exact absurd rfl h
  | cons p ps ih =>
    have later (ht : t ∈ place (position.after p.text) ps) : ∃ before q after,
        p :: ps = before ++ q :: after ∧ q.content? = some t.content ∧
        t.text.length = q.text.length ∧
        t.position = position.after (before.flatMap Piece.text) := by
      obtain ⟨before, q, after, rfl, content, length, at_⟩ := ih ht
      refine ⟨p :: before, q, after, rfl, content, length, ?_⟩
      rw [List.flatMap_cons, Position.after_append, at_]
    cases hc : p.content? with
    | none => exact later (by rwa [place_none hc] at ht)
    | some content =>
      rw [place_some hc, List.mem_cons] at ht
      rcases ht with rfl | ht
      · exact ⟨[], p, ps, rfl, hc, String.length_ofList, rfl⟩
      · exact later ht

theorem eq_of_cons_eq_append {p q : Piece} {between after after' : List Piece}
    (h : p :: after = between ++ q :: after')
    (lt : (between.flatMap Piece.text).length < p.text.length) : p = q := by
  cases between with
  | nil => exact (List.cons.inj h).1
  | cons r between =>
    obtain ⟨rfl, -⟩ := List.cons.inj h
    rw [List.flatMap_cons, List.length_append] at lt
    omega

/-- Only one piece of a text holds the character at an offset. -/
theorem eq_of_split {before before' after after' : List Piece} {p q : Piece} {i : Nat}
    (h : before ++ p :: after = before' ++ q :: after')
    (le : (before.flatMap Piece.text).length ≤ i)
    (lt : i < (before.flatMap Piece.text).length + p.text.length)
    (le' : (before'.flatMap Piece.text).length ≤ i)
    (lt' : i < (before'.flatMap Piece.text).length + q.text.length) : p = q := by
  rcases List.append_eq_append_iff.1 h with ⟨between, rfl, rest⟩ | ⟨between, rfl, rest⟩
  · rw [List.flatMap_append, List.length_append] at le'
    exact eq_of_cons_eq_append rest (by omega)
  · rw [List.flatMap_append, List.length_append] at le
    exact (eq_of_cons_eq_append rest (by omega)).symm

theorem shape_of_ignoresCase {p : Piece} {t : Token} (hc : p.content? = some t.content)
    (h : t.ignoresCase = true) : p.shape = .word ∨ p.shape = .comment := by
  unfold Piece.content? at hc
  split at hc
  case h_2 hs => exact .inr hs
  case h_8 hs => exact .inl hs
  case h_1 => cases hc
  all_goals
    rw [ignoresCase, ← Option.some.inj hc] at h
    cases h

/-- No character of a piece of another shape belongs to a word or a comment. -/
theorem not_ignoresCaseAt {s : String} {before after : List Piece} {p : Piece}
    (split : pieces s.toList = before ++ p :: after) (hw : p.shape ≠ .word)
    (hm : p.shape ≠ .comment) {i : Nat} (hi : i < p.text.length) :
    ¬ IgnoresCaseAt s ((before.flatMap Piece.text).length + i) := by
  rintro ⟨t, ht, word, n, le, position, lt⟩
  have ne : t.content ≠ .stop := by
    intro hs
    rw [ignoresCase, hs] at word
    cases word
  obtain ⟨before', q, after', split', content, length, position'⟩ :=
    exists_split_of_mem_place (List.mem_filter.1 ht).1 ne
  have whole := flatMap_text_pieces s.toList
  have taken : s.toList.take (before'.flatMap Piece.text).length = before'.flatMap Piece.text := by
    rw [← whole, split', List.flatMap_append, List.take_left]
  rw [← taken, Position.start_after_take, position] at position'
  have bounds := congrArg List.length whole
  have bounds' := bounds
  rw [split, List.flatMap_append, List.flatMap_cons, List.length_append, List.length_append]
    at bounds
  rw [split', List.flatMap_append, List.length_append] at bounds'
  obtain rfl := Position.ofOffset_inj (by omega) (by omega) position'
  obtain rfl := eq_of_split (split.symm.trans split') (Nat.le_add_right ..)
    (Nat.add_lt_add_left hi _) le (by rwa [← length])
  rcases shape_of_ignoresCase content word with hs | hs
  · exact hw hs
  · exact hm hs

theorem Recased.pieces {s s' : String} (h : Recased s s') :
    List.Forall₂ Piece.Recased (pieces s.toList) (pieces s'.toList) := by
  refine recased_pieces (IgnoresCaseAt s) ?_ (fun i => ?_)
    fun before p after split hw hm i hi => not_ignoresCaseAt split hw hm hi
  · rw [List.forall₂_iff_get]
    refine ⟨h.length_eq.symm, fun i hi hi' => ?_⟩
    rcases h.same_or i hi with same | ⟨letter, -⟩
    · exact congrArg Char.toLower same
    · exact letter
  · by_cases hi : i < s.toList.length
    · have hi' : i < s'.toList.length := by rwa [h.length_eq]
      rw [List.getElem?_eq_getElem hi, List.getElem?_eq_getElem hi', Option.some_inj]
      exact (h.same_or i hi).imp_right And.right
    · refine .inl ?_
      have := h.length_eq
      rw [List.getElem?_eq_none (by omega), List.getElem?_eq_none (by omega)]

/-! ## The same tokens in another spelling -/

/-- The tokens are the same at the same position, however they are written. -/
structure Respelled (t t' : Token) : Prop where
  content_eq : t'.content = t.content
  lexeme_eq : t'.lexeme = t.lexeme
  position_eq : t'.position = t.position

theorem after_recased (h : List.Forall₂ SameLetter cs cs') (p : Position) :
    p.after cs' = p.after cs := by
  induction h generalizing p with
  | nil => rfl
  | @cons c c' cs cs' hc _ ih =>
    have feed : c' = '\n' ↔ c = '\n' := Caseless.iff (.of_ascii (by decide)) hc
    have step : p.next c' = p.next c := by simp only [Position.next, feed]
    change (p.next c').after cs' = (p.next c).after cs
    rw [step, ih]

theorem map_recased {α : Type} {f : Char → α} (hf : Caseless f)
    (h : List.Forall₂ SameLetter cs cs') : cs'.map f = cs.map f := by
  induction h with
  | nil => rfl
  | cons hc _ ih => rw [List.map_cons, List.map_cons, hf.eq hc, ih]

theorem wordContent_recased (h : List.Forall₂ SameLetter cs cs') :
    wordContent cs' = wordContent cs := by
  have lower : cs'.map Char.toLower = cs.map Char.toLower := by
    induction h with
    | nil => rfl
    | cons hc _ ih => rw [List.map_cons, List.map_cons, ih, hc]
  rw [wordContent, wordContent, map_recased .toUpper h, lower]

namespace Piece.Recased

variable {p p' : Piece}

theorem content?_eq (h : p.Recased p') (hm : p.shape ≠ .comment) : p'.content? = p.content? := by
  by_cases hw : p.shape = .word
  · rw [content?, content?, h.shape_eq, hw]
    exact congrArg some (wordContent_recased h.letters)
  · obtain ⟨shape, text⟩ := p
    obtain ⟨shape', text'⟩ := p'
    obtain ⟨rfl, -, same⟩ := h
    rw [show text' = text from same hw hm]

theorem lexeme_eq (h : p.Recased p') {content : Content} (hc : p.content? = some content)
    (position : Position) : lexeme ⟨content, String.ofList p'.text, position⟩ =
      lexeme ⟨content, String.ofList p.text, position⟩ := by
  cases content with
  | invalid fault =>
    have other : p.shape ≠ .word ∧ p.shape ≠ .comment := by
      constructor
      · intro hs
        rw [content?, hs] at hc
        have word := Option.some.inj hc
        unfold wordContent at word
        split at word <;> cases word
      · intro hs
        rw [content?, hs] at hc
        cases hc
    rw [h.text_eq other.1 other.2]
  | _ => rfl

end Piece.Recased

theorem exists_comment {p : Piece} (h : p.shape = .comment) :
    ∃ text, p.content? = some (.comment text) := by
  rw [Piece.content?, h]
  exact ⟨_, rfl⟩

theorem respelled_place {ps ps' : List Piece} (h : List.Forall₂ Piece.Recased ps ps')
    (position : Position) :
    List.Forall₂ Respelled ((place position ps).filter fun t => !t.isComment)
      ((place position ps').filter fun t => !t.isComment) := by
  induction h generalizing position with
  | nil => exact .cons ⟨rfl, rfl, rfl⟩ .nil
  | @cons p p' ps ps' head tail ih =>
    have later := ih (position.after p.text)
    have after := after_recased head.letters position
    by_cases hm : p.shape = .comment
    · obtain ⟨text, hc⟩ := exists_comment hm
      obtain ⟨text', hc'⟩ := exists_comment (head.shape_eq.trans hm)
      rw [place_some hc, place_some hc', after]
      exact later
    · have content := head.content?_eq hm
      cases hc : p.content? with
      | none => rwa [place_none hc, place_none (content.trans hc), after]
      | some content' =>
        rw [place_some hc, place_some (content.trans hc), after]
        have lexeme := head.lexeme_eq hc position
        have same : isComment ⟨content', String.ofList p'.text, position⟩ =
            isComment ⟨content', String.ofList p.text, position⟩ := rfl
        simp only [List.filter_cons, same]
        split
        · exact .cons ⟨rfl, lexeme, rfl⟩ later
        · exact later

/-- The tokens of a text in another letter case are the same at the same positions. -/
theorem respelled_tokenize {s s' : String} (h : Recased s s') :
    List.Forall₂ Respelled (tokenize false s) (tokenize false s') :=
  respelled_place h.pieces .start

end Worklog.Token
