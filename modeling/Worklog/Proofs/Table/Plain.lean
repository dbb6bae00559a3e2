import Worklog.Proofs.Amount.Hours
import Worklog.Proofs.Table.Display

/-!
# Cells without tabs and line feeds

A text is plain if it has neither a tab nor a line feed, the characters that part the cells and the
rows of a printed table. Dates and numbers are written without them, so the headers and cells of a
table are plain just if what the table takes over as it stands is: the titles of its columns, the
texts of its entries, and the currency symbol where a value is shown behind it (`forall_plain_iff`).
-/

namespace Worklog

/-- The text has neither a tab nor a line feed. -/
def Plain (s : String) : Prop :=
  '\t' ∉ s.toList ∧ '\n' ∉ s.toList

instance (s : String) : Decidable (Plain s) :=
  inferInstanceAs (Decidable (_ ∧ _))

theorem plain_append_iff {s t : String} : Plain (s ++ t) ↔ Plain s ∧ Plain t := by
  simp only [Plain, String.toList_append, List.mem_append, not_or]
  exact and_and_and_comm

theorem Column.Kind.not_holds_absent {kind : Column.Kind} : ¬ kind.Holds .absent := nofun

/-! ## Numbers and dates -/

theorem plain_of_blank_lt {s : String} (h : ∀ c ∈ s.toList, ' ' < c) : Plain s :=
  ⟨fun tab => absurd (h _ tab) (by decide), fun feed => absurd (h _ feed) (by decide)⟩

theorem blank_lt_of_isDigit {c : Char} (h : c.isDigit = true) : ' ' < c := by
  have range : '0'.val ≤ c.val ∧ c.val ≤ '9'.val := by simpa [Char.isDigit] using h
  exact UInt32.lt_of_lt_of_le (by decide) range.1

namespace Decimal

theorem blank_lt_of_mem_placed {grouped : Bool} {places n : Nat} {c : Char}
    (h : c ∈ placed grouped places n) : ' ' < c := by
  rw [placed_eq, List.mem_append, List.mem_cons] at h
  rcases h with whole | rfl | fraction
  · rcases mem_wholeDigits whole with digit | rfl
    · exact blank_lt_of_isDigit digit
    · decide
  · decide
  · exact blank_lt_of_isDigit (Date.isDigit_of_mem_padded fraction)

theorem blank_lt_of_mem_fixed {grouped : Bool} {places : Nat} {x : Float} {c : Char}
    (h : c ∈ (fixed grouped places x).toList) : ' ' < c := by
  have nan : ∀ c ∈ "nan".toList, ' ' < c := by simp
  have inf : ∀ c ∈ "inf".toList, ' ' < c := by simp
  have negative_inf : ∀ c ∈ "-inf".toList, ' ' < c := by simp
  unfold fixed at h
  split at h
  · exact nan c h
  · split at h
    · exact negative_inf c h
    · exact inf c h
  · rw [String.toList_ofList] at h
    split at h
    · rcases List.mem_cons.1 h with rfl | h
      · decide
      · exact blank_lt_of_mem_placed h
    · exact blank_lt_of_mem_placed h

end Decimal

theorem plain_showNumber (x : Float) : Plain (showNumber x) :=
  plain_of_blank_lt fun _ => Decimal.blank_lt_of_mem_fixed

theorem plain_showHours (x : Float) : Plain (showHours x) := by
  refine plain_of_blank_lt fun c h => ?_
  rw [showHours, String.toList_ofList] at h
  exact Decimal.blank_lt_of_mem_fixed (mem_of_mem_dropEnd (mem_of_mem_dropEnd h))

theorem plain_showPercent (x : Float) : Plain (showPercent x) :=
  plain_append_iff.2 ⟨plain_of_blank_lt fun _ => Decimal.blank_lt_of_mem_fixed, by decide⟩

theorem Date.plain_iso (d : Date) : Plain d.iso :=
  ⟨notMem_iso (by decide) (by decide) d, notMem_iso (by decide) (by decide) d⟩

namespace Table

/-! ## Cells -/

/--
Whether values of the kind and format are shown behind the currency symbol: amounts of money are,
and whatever has the format of one, a date included.
-/
def bearsSymbol (kind : Column.Kind) (format : Option Format) : Bool :=
  match format with
  | some .currency | some .money => true
  | some .percent => false
  | none => kind = .currency

/-- What a cell takes over as it stands is plain: its text, and the symbol in front of its value. -/
structure TakesPlain (settings : Settings) (kind : Column.Kind) (format : Option Format)
    (v : Option Value) : Prop where
  text : ∀ s, v = some (.text s) → Plain s
  symbol : v ≠ none → bearsSymbol kind format = true → Plain settings.currencySymbol

section Cell

variable {settings : Settings} {kind : Column.Kind} {format : Option Format} {v : Value}

theorem takesPlain_iff_of_not_text (hv : ∀ text, v ≠ .text text) :
    TakesPlain settings kind format (some v) ↔
      (bearsSymbol kind format = true → Plain settings.currencySymbol) :=
  ⟨fun takes => takes.symbol (Option.some_ne_none v),
    fun symbol => ⟨fun text eq => absurd (Option.some.inj eq) (hv text), fun _ => symbol⟩⟩

theorem plain_iff_of_bare {s : String} (plain : Plain s) (hv : ∀ text, v ≠ .text text)
    (bare : bearsSymbol kind format = false) :
    Plain s ↔ TakesPlain settings kind format (some v) := by
  rw [takesPlain_iff_of_not_text hv]
  exact iff_of_true plain fun amount => absurd (bare.symm.trans amount) Bool.false_ne_true

theorem plain_iff_of_amount {rest : String} (plain : Plain rest) (hv : ∀ text, v ≠ .text text)
    (amount : bearsSymbol kind format = true) :
    Plain (settings.currencySymbol ++ rest) ↔ TakesPlain settings kind format (some v) := by
  rw [takesPlain_iff_of_not_text hv, plain_append_iff, and_iff_left plain]
  exact ⟨fun symbol _ => symbol, fun symbol => symbol amount⟩

theorem plain_presentCell_iff (hv : kind.Holds v) {s : String}
    (h : presentCell settings kind format v = .ok s) :
    Plain s ↔ TakesPlain settings kind format (some v) := by
  cases hv with
  | date d =>
    rcases format with _ | (_ | _ | _)
    · obtain rfl := Except.ok.inj h
      exact plain_iff_of_bare d.plain_iso nofun rfl
    · obtain rfl := Except.ok.inj h
      exact plain_iff_of_amount (by decide) nofun rfl
    · obtain rfl := Except.ok.inj h
      exact plain_iff_of_amount (by decide) nofun rfl
    · cases h
  | text text =>
    rcases format with _ | (_ | _ | _)
    · cases h
      refine ⟨fun plain => ⟨fun s eq => ?_, nofun⟩, fun takes => takes.text text rfl⟩
      cases eq
      exact plain
    all_goals cases h
  | number x number =>
    rcases format with _ | (_ | _ | _)
    · cases kind with
      | date | text => cases number
      | hours =>
        obtain rfl := Except.ok.inj h
        exact plain_iff_of_bare (plain_showHours x) nofun rfl
      | currency =>
        obtain rfl := Except.ok.inj h
        exact plain_iff_of_amount (plain_showNumber x) nofun rfl
      | percent =>
        obtain rfl := Except.ok.inj h
        exact plain_iff_of_bare (plain_showPercent x) nofun rfl
    · obtain rfl := Except.ok.inj h
      exact plain_iff_of_amount (plain_showNumber x) nofun rfl
    · obtain rfl := Except.ok.inj h
      exact plain_iff_of_amount (plain_showNumber x) nofun rfl
    · obtain rfl := Except.ok.inj h
      exact plain_iff_of_bare (plain_showPercent x) nofun rfl

end Cell

/-- A cell is plain just if what it takes over is. -/
theorem plain_cell_iff {settings : Settings} {e : Entry} {c : ShownColumn} {s : String}
    (h : cell settings c.column.kind c.format (c.column.value? settings e) = .ok s) :
    Plain s ↔ TakesPlain settings c.column.kind c.format (c.column.value? settings e) := by
  cases hv : c.column.value? settings e with
  | none =>
    rw [hv] at h
    cases h
    exact iff_of_true (by decide) ⟨nofun, fun some => absurd rfl some⟩
  | some v =>
    have holds := Column.holds_of_value? hv
    refine plain_presentCell_iff holds ?_
    rw [hv] at h
    cases v with
    | absent => exact absurd holds Column.Kind.not_holds_absent
    | _ => exact h

/-! ## Tables -/

theorem plain_header_iff (c : ShownColumn) :
    Plain (header c) ↔ ∀ title, c.title = some title → Plain title := by
  have label : Plain c.column.label := by
    cases c.column <;> decide
  unfold header
  split
  · rename_i none
    exact iff_of_true label fun title eq => nomatch none.symm.trans eq
  · rename_i empty
    refine iff_of_true label fun title eq => ?_
    cases empty.symm.trans eq
    decide
  · rename_i title _ present
    simp [present]

/--
All that a table takes over as it stands is plain: the titles of its columns, the texts that its
entries have in them, and the currency symbol, if a value is shown behind it.
-/
structure TakesOnlyPlain (settings : Settings) (columns : List ShownColumn)
    (entries : List Entry) : Prop where
  titles : ∀ c ∈ columns, ∀ title, c.title = some title → Plain title
  cells : ∀ e ∈ entries, ∀ c ∈ columns,
    TakesPlain settings c.column.kind c.format (c.column.value? settings e)

/-- The headers and cells of a table are plain just if all that it takes over is. -/
theorem forall_plain_iff {settings : Settings} {columns : List ShownColumn} {entries : List Entry}
    {t : Table} (h : ofEntries settings columns entries = .ok t) :
    (∀ row ∈ t.headers :: t.rows, ∀ s ∈ row, Plain s) ↔
      TakesOnlyPlain settings (columnsOrDefault columns) entries := by
  obtain ⟨rows, hrows, h⟩ := exists_of_bind_ok h
  cases h
  have titles : (∀ s ∈ (columnsOrDefault columns).map header, Plain s) ↔
      ∀ c ∈ columnsOrDefault columns, ∀ title, c.title = some title → Plain title := by
    rw [List.forall_mem_map]
    exact forall₂_congr fun c _ => plain_header_iff c
  have cells := forall_mem_iff_of_forall₂ (mapM_eq_ok_iff.1 hrows) fun e texts hrow =>
    forall_mem_iff_of_forall₂ (mapM_eq_ok_iff.1 hrow) fun c s hcell =>
      (plain_cell_iff (e := e) (c := c) hcell).symm
  rw [List.forall_mem_cons, ← cells]
  exact ⟨fun ⟨headers, rows⟩ => ⟨titles.1 headers, rows⟩,
    fun only => ⟨titles.2 only.titles, only.cells⟩⟩

end Table

end Worklog
