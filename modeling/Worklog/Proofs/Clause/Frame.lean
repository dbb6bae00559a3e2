import Worklog.Proofs.Clause.Moving

/-!
# Clauses around a condition

A frame is what stands around a condition of a query: the other conditions of its clause, the other
clauses, and their tokens. Each sign of a comparison, and each word that asks for a range, stands in
a condition, with a frame around it (`Clause.AllWritten.exists_frame`). Other conditions may be
written in the same frame, which may stand elsewhere then (`Clause.Frame.Fits`).
-/

namespace Worklog

/-! ## Where tests begin -/

/-- The contents with which tests begin. -/
def Token.Content.beginsTest : Token.Content → Bool
  | .operator _ | .keyword .between => true
  | _ => false

theorem Literal.Written.not_beginsTest {l : Literal} {ts : List Token} (h : l.Written ts) :
    ∀ t ∈ ts, t.content.beginsTest = false := by
  cases h with
  | number content => simp [content, Token.Content.beginsTest]
  | text content _ => simp [content, Token.Content.beginsTest]
  | date content _ => simp [content, Token.Content.beginsTest]

theorem ColumnItem.FormatWritten.not_beginsTest {format : Option String} {ts : List Token}
    (h : FormatWritten format ts) : ∀ t ∈ ts, t.content.beginsTest = false := by
  cases h with
  | none => simp
  | some word content _ => simp [word, content, Token.Content.beginsTest]

theorem ColumnItem.TitleWritten.not_beginsTest {title : Option String} {ts : List Token}
    (h : TitleWritten title ts) : ∀ t ∈ ts, t.content.beginsTest = false := by
  cases h with
  | none => simp
  | some word content => simp [word, content, Token.Content.beginsTest]

theorem ColumnItem.Written.not_beginsTest {c : ColumnItem} {ts : List Token} (h : c.Written ts) :
    ∀ t ∈ ts, t.content.beginsTest = false := by
  cases h with
  | field content formats titles =>
    rw [List.forall_mem_cons, List.forall_mem_append]
    exact ⟨by rw [content]; rfl, formats.not_beginsTest, titles.not_beginsTest⟩
  | title word content => simp [word, content, Token.Content.beginsTest]

theorem Choice.ValueWritten.not_beginsTest {c : Choice} {value : String} {t : Token}
    (h : c.ValueWritten value t) : t.content.beginsTest = false := by
  cases h with
  | name content _ => rw [content]; rfl
  | chart content => rw [content]; rfl

/-- A test begins behind the field of its condition, and nowhere else in it. -/
theorem Condition.Written.eq_of_beginsTest {known : String → Prop} {c : Condition}
    {ts : List Token} (h : c.Written known ts) {u : Token} (hu : u ∈ ts)
    (test : u.content.beginsTest = true) : ∃ t rest, ts = t :: u :: rest := by
  cases h with
  | @mk t name test' us content field tests =>
    have behind : u ∈ us := by
      refine (List.mem_cons.1 hu).resolve_left ?_
      rintro rfl
      rw [content] at test
      cases test
    cases tests with
    | @compare s op l ls sign value =>
      rcases List.mem_cons.1 behind with rfl | hl
      · exact ⟨t, ls, rfl⟩
      · rw [value.not_beginsTest u hl] at test
        cases test
    | @range s m low high ls hs first lower middle upper =>
      rcases List.mem_cons.1 behind with rfl | behind
      · exact ⟨t, _, rfl⟩
      · rcases List.mem_append.1 behind with hl | behind
        · rw [lower.not_beginsTest u hl] at test
          cases test
        · rcases List.mem_cons.1 behind with rfl | hh
          · rw [middle] at test
            cases test
          · rw [upper.not_beginsTest u hh] at test
            cases test

/-! ## Items around an item -/

theorem Token.Separated.append {α : Type} {written : α → List Token → Prop} {mark : Token.Content}
    {as bs : List α} {ts us : List Token} {t : Token} (ha : Separated written mark as ts)
    (between : t.content = mark) (hb : Separated written mark bs us) :
    Separated written mark (as ++ bs) (ts ++ t :: us) := by
  induction ha with
  | single head => exact .cons head between hb
  | cons head first tail ih =>
    rw [List.append_assoc]
    exact .cons head first ih

theorem Token.Separated.not_beginsTest {α : Type} {written : α → List Token → Prop}
    {mark : Token.Content} {as : List α} {ts : List Token} (h : Separated written mark as ts)
    (hw : ∀ a us, written a us → ∀ t ∈ us, t.content.beginsTest = false)
    (hm : mark.beginsTest = false) : ∀ t ∈ ts, t.content.beginsTest = false := by
  induction h with
  | single head => exact hw _ _ head
  | cons head between tail ih =>
    rw [List.forall_mem_append, List.forall_mem_cons]
    exact ⟨hw _ _ head, by rw [between, hm], ih⟩

namespace Clause

variable {known : String → Prop}

/-- What stands around a condition: other conditions and clauses, and their tokens. -/
structure Frame where
  front : List Clause
  position : Position
  first : List Condition
  last : List Condition
  back : List Clause
  before : List Token
  after : List Token

namespace Frame

/-- The clauses with conditions in the frame. -/
def clauses (k : Frame) (cs : List Condition) : List Clause :=
  k.front ++ ⟨.conditions (k.first ++ cs ++ k.last), k.position⟩ :: k.back

/-- The tokens with those of conditions in the frame. -/
def tokens (k : Frame) (ts : List Token) : List Token :=
  k.before ++ ts ++ k.after

/-- The frame with its positions changed. -/
def moved (f : Position → Position) (k : Frame) : Frame where
  front := k.front.map (Clause.moved f)
  position := f k.position
  first := k.first.map (Condition.moved f)
  last := k.last.map (Condition.moved f)
  back := k.back.map (Clause.moved f)
  before := k.before.map (Token.moved f)
  after := k.after.map (Token.moved f)

/-- Any conditions may be written in the frame, wherever it stands. -/
def Fits (known : String → Prop) (k : Frame) : Prop :=
  ∀ f cs ts, Token.Separated (Condition.Written known) (.keyword .and) cs ts →
    AllWritten known ((k.moved f).clauses cs) ((k.moved f).tokens ts)

end Frame

/-- A condition among others, of which any may be written in its place. -/
theorem exists_frame_of_separated {cs : List Condition} {ts : List Token}
    (h : Token.Separated (Condition.Written known) (.keyword .and) cs ts) {u : Token} (hu : u ∈ ts)
    (test : u.content.beginsTest = true) : ∃ first c last before us after,
      cs = first ++ c :: last ∧ ts = before ++ us ++ after ∧ u ∈ us ∧ c.Written known us ∧
      ∀ (f : Position → Position) ds vs,
        Token.Separated (Condition.Written known) (.keyword .and) ds vs →
        Token.Separated (Condition.Written known) (.keyword .and)
          (first.map (Condition.moved f) ++ ds ++ last.map (Condition.moved f))
          (before.map (Token.moved f) ++ vs ++ after.map (Token.moved f)) := by
  induction h with
  | @single c ts head =>
    refine ⟨[], c, [], [], ts, [], rfl, (List.append_nil _).symm, hu, head, fun f ds vs hd => ?_⟩
    simpa using hd
  | @cons c cs t ts us head between tail ih =>
    rcases List.mem_append.1 hu with hu | hu
    · refine ⟨[], c, cs, [], ts, t :: us, rfl, rfl, hu, head, fun f ds vs hd => ?_⟩
      exact hd.append (t := t.moved f) between (tail.moved f fun _ _ h => h.moved f)
    · rcases List.mem_cons.1 hu with rfl | hu
      · rw [between] at test
        cases test
      · obtain ⟨first, d, last, before, ws, after, rfl, rfl, hw, written, fits⟩ := ih hu
        refine ⟨c :: first, d, last, ts ++ t :: before, ws, after, rfl, by simp, hw, written,
          fun f ds vs hd => ?_⟩
        have rest := Token.Separated.cons (t := t.moved f) (head.moved f) between (fits f ds vs hd)
        simpa using rest

/-- A test begins among the conditions of a WHERE clause, and in no other clause. -/
theorem Written.exists_conditions {c : Clause} {ts : List Token} (h : c.Written known ts)
    {u : Token} (hu : u ∈ ts) (test : u.content.beginsTest = true) : ∃ w cs us,
      c = ⟨.conditions cs, w.position⟩ ∧ ts = w :: us ∧ w.content = .keyword .conditions ∧
      u ∈ us ∧ Token.Separated (Condition.Written known) (.keyword .and) cs us := by
  cases h with
  | @conditions w cs ts word items =>
    refine ⟨w, cs, ts, rfl, rfl, word, (List.mem_cons.1 hu).resolve_left ?_, items⟩
    rintro rfl
    rw [word] at test
    cases test
  | @columns w cs ts word items =>
    rcases List.mem_cons.1 hu with rfl | hu
    · rw [word] at test
      cases test
    · rw [items.not_beginsTest (fun _ _ h => h.not_beginsTest) rfl u hu] at test
      cases test
  | @choice w v c value word content =>
    rcases List.mem_cons.1 hu with rfl | hu
    · rw [word] at test
      cases test
    · rw [List.mem_singleton.1 hu, content.not_beginsTest] at test
      cases test

/-- A condition of a query stands in a frame. -/
theorem AllWritten.exists_frame {clauses : List Clause} {ts : List Token}
    (h : AllWritten known clauses ts) {u : Token} (hu : u ∈ ts)
    (test : u.content.beginsTest = true) : ∃ (k : Frame) (c : Condition) (us : List Token),
      clauses = k.clauses [c] ∧ ts = k.tokens us ∧ u ∈ us ∧ c.Written known us ∧ k.Fits known := by
  induction h with
  | nil => cases hu
  | @cons c cs ts us head tail ih =>
    rcases List.mem_append.1 hu with hu | hu
    · obtain ⟨w, items, ts, rfl, rfl, word, hu, separated⟩ := head.exists_conditions hu test
      obtain ⟨first, d, last, before, vs, after, rfl, rfl, hu, written, fits⟩ :=
        exists_frame_of_separated separated hu test
      refine ⟨⟨[], w.position, first, last, cs, w :: before, after ++ us⟩, d, vs, ?_, ?_, hu,
        written, fun f ds ws hd => ?_⟩
      · simp [Frame.clauses]
      · simp [Frame.tokens]
      · have filled := Clause.Written.conditions (t := w.moved f) word (fits f ds ws hd)
        have all := AllWritten.cons filled (tail.moved f)
        simpa [Frame.clauses, Frame.tokens, Frame.moved, Token.moved] using all
    · obtain ⟨k, d, vs, rfl, rfl, hu, written, fits⟩ := ih hu
      refine ⟨{ k with front := c :: k.front, before := ts ++ k.before }, d, vs, rfl, ?_, hu,
        written, fun f ds ws hd => ?_⟩
      · simp [Frame.tokens]
      · have all := AllWritten.cons (head.moved f) (fits f ds ws hd)
        simpa [Frame.clauses, Frame.tokens, Frame.moved] using all

end Clause

end Worklog
