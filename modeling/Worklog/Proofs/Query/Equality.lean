import Worklog.Proofs.Clause.Parsing
import Worklog.Proofs.Query.Standard
import Worklog.Proofs.Token.Layout
import Worklog.Proofs.Token.Number

/-!
# Texts of a single condition

The shortest texts with a number say that a field is equal to it (`Query.equality`). They are cut
into the same tokens whatever the number is (`Token.exists_tokenize_equality`), so what they mean is
what the number is accepted as (`Query.compile_equality`).
-/

namespace Worklog

/-- The text that asks for a field to be equal to a number. -/
def Query.equality (field : Rule) (number : String) : String :=
  "WHERE " ++ field.name ++ " = " ++ number

namespace Token

/-! ## Words with blanks between them -/

/-- A piece that stays what it is where a blank follows. -/
structure Piece.Lasting (p : Piece) : Prop where
  alone : pieces p.text = [p]
  solid : p.shape ≠ .blank
  closed : p.shape ≠ .openQuote
  no_comment : p.shape ≠ .comment

theorem Piece.Lasting.exists_cons {p : Piece} (h : p.Lasting) :
    ∃ c cs, p.text = c :: cs ∧ Text.isBlank c = false := by
  obtain ⟨shape, text⟩ := p
  cases text with
  | nil =>
    have alone := h.alone
    rw [pieces] at alone
    cases alone
  | cons c cs =>
    refine ⟨c, cs, rfl, ?_⟩
    by_contra blank
    have alone := h.alone
    rw [pieces] at alone
    have shape_eq := congrArg Piece.shape (List.cons.inj alone).1
    rw [extent, if_pos (by simpa using blank)] at shape_eq
    exact h.solid shape_eq.symm

theorem pieces_blank_cons {c : Char} (h : Text.isBlank c = false) (cs : List Char) :
    pieces (' ' :: c :: cs) = ⟨.blank, [' ']⟩ :: pieces (c :: cs) := by
  have single : extent ' ' (c :: cs) = (.blank, 0) := by
    have blank : Text.isBlank ' ' = true := by decide
    rw [extent, if_pos blank, runLength, List.takeWhile_cons_of_neg (by simp [h])]
    rfl
  rw [pieces, single]
  rfl

theorem pieces_spaced {p q : Piece} (hp : p.Lasting) (hq : q.Lasting) (ys : List Char) :
    pieces (p.text ++ ' ' :: (q.text ++ ys)) =
      p :: ⟨.blank, [' ']⟩ :: pieces (q.text ++ ys) := by
  obtain ⟨c, cs, text, solid⟩ := hq.exists_cons
  rw [pieces_append_blank (by decide) hp.alone hp.solid hp.closed fun h => absurd h hp.no_comment,
    text, List.cons_append, pieces_blank_cons solid]

/-! ## The tokens of a condition -/

/-- A number as it is found in texts. -/
def Found (raw : String) : Prop :=
  ∃ text t, t ∈ tokenize false text ∧ t.content = .number raw

theorem found_iff {raw : String} :
    Found raw ↔ pieces raw.toList = [⟨.number, raw.toList⟩] := by
  constructor
  · rintro ⟨text, t, ht, hc⟩
    obtain ⟨p, hp, content⟩ := exists_piece_of_mem_tokenize ht (by simp [hc])
    obtain ⟨shape, rfl⟩ := number_of_piece (hc ▸ content)
    rw [String.toList_ofList, ← shape]
    exact pieces_of_mem p hp
  · intro alone
    refine ⟨raw, ⟨.number raw, raw, .start⟩, ?_, rfl⟩
    rw [tokenize, alone]
    simp [place, Piece.content?, isComment]

theorem Found.lasting {raw : String} (h : Found raw) : Piece.Lasting ⟨.number, raw.toList⟩ :=
  ⟨found_iff.1 h, nofun, nofun, nofun⟩

theorem lasting_keyword : Piece.Lasting ⟨.word, "WHERE".toList⟩ :=
  ⟨by decide +kernel, nofun, nofun, nofun⟩

theorem lasting_name (field : Rule) : Piece.Lasting ⟨.word, field.name.toList⟩ :=
  ⟨by cases field <;> decide +kernel, nofun, nofun, nofun⟩

theorem lasting_sign : Piece.Lasting ⟨.operator, ['=']⟩ :=
  ⟨by decide +kernel, nofun, nofun, nofun⟩

theorem pieces_equality (field : Rule) {raw : String} (h : Found raw) :
    pieces (Query.equality field raw).toList =
      [⟨.word, "WHERE".toList⟩, ⟨.blank, [' ']⟩, ⟨.word, field.name.toList⟩, ⟨.blank, [' ']⟩,
        ⟨.operator, ['=']⟩, ⟨.blank, [' ']⟩, ⟨.number, raw.toList⟩] := by
  have text : (Query.equality field raw).toList = "WHERE".toList ++
      ' ' :: (field.name.toList ++ ' ' :: (['='] ++ ' ' :: (raw.toList ++ []))) := by
    simp [Query.equality, String.toList_append]
  have number := h.lasting
  have alone := number.alone
  rw [text]
  refine (pieces_spaced lasting_keyword (lasting_name field) _).trans ?_
  refine congrArg (_ :: _ :: ·) ((pieces_spaced (lasting_name field) lasting_sign _).trans ?_)
  refine congrArg (_ :: _ :: ·) ((pieces_spaced lasting_sign number _).trans ?_)
  rw [List.append_nil, alone]

theorem exists_tokenize_equality (field : Rule) {raw : String} (h : Found raw) :
    ∃ word name sign number stop : Token,
      tokenize false (Query.equality field raw) = [word, name, sign, number] ++ [stop] ∧
        word.content = .keyword .conditions ∧ name.content = .identifier field.name ∧
        sign.content = .operator .eq ∧ number.content = .number raw ∧
        number.position = ⟨1, 10 + field.name.length⟩ := by
  have word : wordContent "WHERE".toList = .keyword .conditions := by decide +kernel
  have name : wordContent field.name.toList = .identifier field.name := by
    cases field <;> decide +kernel
  have sign : Operator.ofSpelling (String.ofList ['=']) = .eq := by decide +kernel
  have column : (((((Position.start.after "WHERE".toList).after [' ']).after
      field.name.toList).after [' ']).after ['=']).after [' '] = ⟨1, 10 + field.name.length⟩ := by
    cases field <;> decide +kernel
  rw [tokenize, pieces_equality field h]
  simp only [place, Piece.content?, word, name, sign, String.ofList_toList, column]
  exact ⟨_, _, _, _, _, rfl, rfl, rfl, rfl, rfl, rfl⟩

end Token

/-! ## The condition of a text -/

section Found

variable {registry : Registry} {field : Rule}
  (found : registry.get? field.name = some (.standard field))

include found

theorem Condition.read_equality (l : Literal) (position : Position) :
    read registry ⟨field.name, .compare .eq l, position⟩ =
      (l.accepted (.standard field)).map fun v => ⟨field.name, .compare .eq v⟩ := by
  have accepts : (FieldHandler.standard field).accepts .eq = true := by cases field <;> decide
  simp only [read, found, readTest, accepts, if_true]
  cases l.accepted (.standard field) <;> rfl

/-- A text that asks for a field to be equal to a number means what the number is accepted as. -/
theorem Query.compile_equality {raw : String} (h : Token.Found raw) :
    compile registry (equality field raw) =
      (Literal.accepted (.standard field) ⟨.number, raw, ⟨1, 10 + field.name.length⟩⟩).map
        fun v => { conditions := some [⟨field.name, .compare .eq v⟩] } := by
  have known : field.name ∈ registry.names := Registry.name_mem_names found
  obtain ⟨word, name, sign, number, stop, cut, hw, hn, hs, hr, place⟩ :=
    Token.exists_tokenize_equality field h
  obtain ⟨body, stop', cut', canonical⟩ :=
    Token.exists_canonical_tokenize (equality field raw)
  obtain ⟨rfl, -⟩ := List.append_inj' (cut'.symm.trans cut) rfl
  let condition : Condition :=
    ⟨field.name, .compare .eq ⟨.number, raw, number.position⟩, name.position⟩
  have written : Clause.AllWritten (· ∈ registry.names) [⟨.conditions [condition], word.position⟩]
      [word, name, sign, number] :=
    .cons (.conditions hw (.single (.mk hn known (.compare hs (.number hr))))) .nil
  have meant : ofClauses registry [⟨.conditions [condition], word.position⟩] =
      (condition.read registry).map fun p => { conditions := some [p] } := by
    simp only [ofClauses, List.foldlM_cons, addClause, List.mapM_cons]
    cases condition.read registry <;> rfl
  rw [compile, parse, cut', (Clause.parseTokens_eq_ok_iff canonical).2 written, ← place]
  refine meant.trans ?_
  rw [Condition.read_equality found]
  cases Literal.accepted (.standard field) ⟨.number, raw, number.position⟩ <;> rfl

end Found

end Worklog
