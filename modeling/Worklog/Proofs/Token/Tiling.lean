import Mathlib.Data.List.Induction
import Worklog.Proofs.Token.Lexing
import Worklog.Proofs.Token.Position

/-!
# How the tokens of a text tile it

With its comments, a text is cut into slices that stand one behind the other, and nothing but white
space lies between them (`Tiles`). The position of a token is that of its offset, told from the
line feeds before it (`Position.ofOffset`). Tiles are laid from the end of the text to its start: a
piece of white space leaves a gap before them (`Tiles.behind_blank`), and every other piece is one
tile more (`Tiles.cons`). The tokens without comments are those among them that are none
(`tokenize_tiles`).
-/

namespace Worklog

namespace Position

/--
The position of an offset: line feeds before it count its lines, and the characters behind the last
of them its columns.
-/
def ofOffset (cs : List Char) (n : Nat) : Position :=
  ⟨1 + (cs.take n).count '\n', 1 + ((cs.take n).reverse.takeWhile (· != '\n')).length⟩

theorem after_append (p : Position) (cs ds : List Char) :
    p.after (cs ++ ds) = (p.after cs).after ds :=
  List.foldl_append ..

theorem after_start (cs : List Char) : start.after cs =
    ⟨1 + cs.count '\n', 1 + (cs.reverse.takeWhile (· != '\n')).length⟩ := by
  induction cs using List.reverseRecOn with
  | nil => rfl
  | append_singleton cs c ih =>
    rw [after_append, ih, List.count_append, List.reverse_concat]
    by_cases hc : c = '\n'
    · subst hc
      rfl
    · rw [List.takeWhile_cons_of_pos (by simpa using hc)]
      simp only [after, next, List.foldl_cons, List.foldl_nil, if_neg hc, List.length_cons,
        List.count_singleton, beq_iff_eq, Nat.add_zero]
      rfl

theorem start_after_take (cs : List Char) (n : Nat) : start.after (cs.take n) = ofOffset cs n :=
  after_start (cs.take n)

theorem ofOffset_add (cs : List Char) (n k : Nat) :
    (ofOffset cs n).after ((cs.drop n).take k) = ofOffset cs (n + k) := by
  rw [← start_after_take, ← start_after_take, List.take_add, after_append]

/-- Offsets of a text are told apart by their positions. -/
theorem ofOffset_inj {cs : List Char} {m n : Nat} (hm : m ≤ cs.length) (hn : n ≤ cs.length)
    (h : ofOffset cs m = ofOffset cs n) : m = n := by
  have apart {m n : Nat} (hn : n ≤ cs.length) (lt : m < n) :
      ofOffset cs m ≠ ofOffset cs n := by
    have between : (cs.drop m).take (n - m) ≠ [] := by
      rw [Ne, List.take_eq_nil_iff, List.drop_eq_nil_iff]
      omega
    have before := before_after between (ofOffset cs m)
    rw [ofOffset_add, Nat.add_sub_of_le (Nat.le_of_lt lt)] at before
    exact before.ne
  rcases Nat.lt_trichotomy m n with lt | rfl | lt
  · exact absurd h (apart hn lt)
  · rfl
  · exact absurd h.symm (apart hm lt)

end Position

namespace Token

/-! ## Pieces of white space -/

theorem isBlank_of_extent {c : Char} {rest : List Char} (h : (extent c rest).1 = .blank) :
    ∀ d ∈ c :: rest.take (extent c rest).2, Text.isBlank d = true := by
  revert h
  fun_cases extent c rest with
  | case1 hc =>
    intro _
    rw [take_runLength, List.forall_mem_cons]
    exact ⟨hc, forall_mem_takeWhile _ _⟩
  | _ =>
    intro h
    cases h

theorem isBlank_of_mem_pieces {cs : List Char} :
    ∀ p ∈ pieces cs, p.shape = .blank → ∀ c ∈ p.text, Text.isBlank c = true := by
  fun_induction pieces cs with
  | case1 => simp
  | case2 c rest ih =>
    rw [List.forall_mem_cons]
    exact ⟨isBlank_of_extent, ih⟩

/-- Only a piece of white space becomes no token. -/
theorem shape_eq_blank_of_content {p : Piece} (h : p.content? = none) : p.shape = .blank := by
  unfold Piece.content? at h
  split at h
  case h_1 hs => exact hs
  all_goals cases h

/-! ## Tiles -/

/-- A token with its offset in a text. -/
structure Tile where
  offset : Nat
  token : Token

/-- The offset behind the token. -/
def Tile.stop (x : Tile) : Nat :=
  x.offset + x.token.text.length

/-- The token is written in the text at its offset, and has the position of that. -/
structure Tile.StandsIn (x : Tile) (cs : List Char) : Prop where
  content_ne : x.token.content ≠ .stop
  text_ne : x.token.text ≠ ""
  slice_eq : (cs.drop x.offset).take x.token.text.length = x.token.text.toList
  position_eq : x.token.position = .ofOffset cs x.offset

/-- The tiles stand in the text one behind the other, with white space where no tile is. -/
structure Tiles (cs : List Char) (start : Nat) (tiles : List Tile) : Prop where
  stands : ∀ x ∈ tiles, x.StandsIn cs
  start_le : ∀ x ∈ tiles, start ≤ x.offset
  stop_le : ∀ x ∈ tiles, x.stop ≤ cs.length
  apart : tiles.Pairwise fun x y => x.stop ≤ y.offset
  blank : ∀ i, (h : i < cs.length) → start ≤ i →
    (∀ x ∈ tiles, i < x.offset ∨ x.stop ≤ i) → Text.isBlank cs[i] = true

theorem Tile.StandsIn.offset_lt {x : Tile} {cs : List Char} (h : x.StandsIn cs) :
    x.offset < x.stop := by
  have : x.token.text.length ≠ 0 := fun hl => h.text_ne (String.length_eq_zero_iff.1 hl)
  unfold Tile.stop
  omega

namespace Tiles

variable {cs : List Char} {start k : Nat} {tiles : List Tile}

theorem nil (cs : List Char) : Tiles cs cs.length [] where
  stands := nofun
  start_le := nofun
  stop_le := nofun
  apart := .nil
  blank := fun _ h hs => absurd h (Nat.not_lt.2 hs)

theorem offset_lt_offset (h : Tiles cs start tiles) :
    tiles.Pairwise fun x y => x.offset < y.offset := by
  refine h.apart.imp_of_mem fun {x y} hx _ hle => ?_
  have := (h.stands x hx).offset_lt
  omega

theorem behind_blank (h : Tiles cs (start + k) tiles)
    (hb : ∀ c ∈ (cs.drop start).take k, Text.isBlank c = true) : Tiles cs start tiles where
  stands := h.stands
  start_le := fun x hx => by
    have := h.start_le x hx
    omega
  stop_le := h.stop_le
  apart := h.apart
  blank := by
    intro i hi hs free
    by_cases hk : start + k ≤ i
    · exact h.blank i hi hk free
    · apply hb
      rw [List.mem_iff_getElem]
      refine ⟨i - start, ?_, ?_⟩
      · rw [List.length_take, List.length_drop]
        omega
      · rw [List.getElem_take, List.getElem_drop]
        simp only [Nat.add_sub_of_le hs]

theorem cons {x : Tile} (h : Tiles cs x.stop tiles) (hx : x.StandsIn cs)
    (hstop : x.stop ≤ cs.length) : Tiles cs x.offset (x :: tiles) where
  stands := List.forall_mem_cons.2 ⟨hx, h.stands⟩
  start_le := by
    have := hx.offset_lt
    refine List.forall_mem_cons.2 ⟨Nat.le_refl _, fun y hy => ?_⟩
    have := h.start_le y hy
    omega
  stop_le := List.forall_mem_cons.2 ⟨hstop, h.stop_le⟩
  apart := List.pairwise_cons.2 ⟨h.start_le, h.apart⟩
  blank := by
    intro i hi hs free
    rw [List.forall_mem_cons] at free
    refine h.blank i hi ?_ free.2
    omega

end Tiles

/-- Pieces that make up a text from an offset on are placed as tiles of it. -/
theorem exists_tiles {cs : List Char} {ps : List Piece} {n : Nat} (hn : n ≤ cs.length)
    (rest : cs.drop n = ps.flatMap Piece.text) (ne : ∀ p ∈ ps, p.text ≠ [])
    (blank : ∀ p ∈ ps, p.shape = .blank → ∀ c ∈ p.text, Text.isBlank c = true) :
    ∃ tiles, place (.ofOffset cs n) ps =
      tiles.map Tile.token ++ [⟨.stop, "", .ofOffset cs cs.length⟩] ∧ Tiles cs n tiles := by
  induction ps generalizing n with
  | nil =>
    have hlen : n = cs.length := by
      have := List.drop_eq_nil_iff.1 rest
      omega
    subst hlen
    exact ⟨[], rfl, .nil cs⟩
  | cons p ps ih =>
    rw [List.forall_mem_cons] at ne blank
    rw [List.flatMap_cons] at rest
    have first : (cs.drop n).take p.text.length = p.text := by rw [rest, List.take_left]
    have hstop : n + p.text.length ≤ cs.length := by
      have := congrArg List.length rest
      rw [List.length_drop, List.length_append] at this
      omega
    have later : cs.drop (n + p.text.length) = ps.flatMap Piece.text := by
      rw [← List.drop_drop, rest, List.drop_left]
    have moved := Position.ofOffset_add cs n p.text.length
    rw [first] at moved
    obtain ⟨tiles, placed, tiled⟩ := ih hstop later ne.2 blank.2
    unfold place
    rw [moved, placed]
    split
    · rename_i content hc
      let x : Tile := ⟨n, content, String.ofList p.text, .ofOffset cs n⟩
      have hlen : x.token.text.length = p.text.length := String.length_ofList
      have stands : x.StandsIn cs := {
        content_ne := content_ne_stop_of_piece hc
        text_ne := fun h => ne.1 (by simpa [x] using h)
        slice_eq := by rw [hlen, first, String.toList_ofList]
        position_eq := rfl }
      have tiled : Tiles cs x.stop tiles := by rwa [Tile.stop, hlen]
      refine ⟨x :: tiles, rfl, tiled.cons stands ?_⟩
      rwa [Tile.stop, hlen]
    · rename_i hc
      refine ⟨tiles, rfl, tiled.behind_blank ?_⟩
      rw [first]
      exact blank.1 (shape_eq_blank_of_content hc)

/--
The tokens of a text with its comments are slices of it at increasing offsets, and the end. They
have the positions of their offsets, and only white space is left over. Without comments, the
other tokens are the same.
-/
theorem tokenize_tiles (s : String) :
    (∃ tiles, tokenize true s =
        tiles.map Tile.token ++ [⟨.stop, "", .ofOffset s.toList s.toList.length⟩] ∧
      (tiles.Pairwise fun x y => x.offset < y.offset) ∧ Tiles s.toList 0 tiles) ∧
    tokenize false s = (tokenize true s).filter fun t => !t.isComment := by
  have start : 0 ≤ s.toList.length := Nat.zero_le _
  obtain ⟨tiles, placed, tiled⟩ := exists_tiles start
    (flatMap_text_pieces s.toList).symm text_ne_nil_of_mem_pieces isBlank_of_mem_pieces
  constructor
  · refine ⟨tiles, ?_, tiled.offset_lt_offset, tiled⟩
    rw [← placed, tokenize, List.filter_eq_self.2 fun _ _ => Bool.true_or _]
    rfl
  · rw [tokenize, tokenize, List.filter_filter]
    simp only [Bool.false_or, Bool.true_or, Bool.and_true]

-- A quoted text may go over several lines, and columns are counted from the last of them.
example : (tokenize true "WHERE\n  \"a\nb\" // c").map Token.position =
    [⟨1, 1⟩, ⟨2, 3⟩, ⟨3, 4⟩, ⟨3, 8⟩] := by
  decide +kernel

end Token

end Worklog
