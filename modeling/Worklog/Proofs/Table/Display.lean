import Worklog.Proofs.Chain.SideBySide
import Worklog.Proofs.Date.Basic
import Worklog.Query.Interpretation
import Worklog.Table

/-!
# What a table shows

A table shows entries if it has a row for each of them in order, and each of its cells renders the
value of its column (`Table.Shows`). A format is one of numbers, so it renders no day and no text:
a text is refused, and so is a day as a percentage, but as an amount of money a day is shown as the
pattern of the format. Entries are therefore shown just if no format meets a day or a text
(`Table.shows_iff`). No column is refused for its format when a query is compiled
(`Table.exists_unshown`).
-/

namespace Worklog

/-! ## The values of a column -/

/-- The values of the kind are numbers. -/
def Column.Kind.isNumber : Column.Kind → Bool
  | .date | .text => false
  | .hours | .currency | .percent => true

/-- The value is one of the kind. -/
inductive Column.Kind.Holds : Column.Kind → Value → Prop
  | date (d : Date) : Holds .date (.date d)
  | text (s : String) : Holds .text (.text s)
  | number {kind : Column.Kind} (x : Float) (h : kind.isNumber = true) : Holds kind (.float x)

theorem Column.holds_of_value? {c : Column} {settings : Settings} {e : Entry} {v : Value}
    (h : c.value? settings e = some v) : c.kind.Holds v := by
  cases c with
  | date =>
    cases h
    exact .date e.date
  | project | client | category | notes =>
    obtain ⟨s, -, rfl⟩ := Option.map_eq_some_iff.1 h
    exact .text s
  | rate =>
    obtain ⟨x, -, rfl⟩ := Option.map_eq_some_iff.1 h
    exact .number x rfl
  | hours | invoiced | utilization =>
    cases h
    exact .number _ rfl

namespace Table

/-! ## Cells -/

/--
The text of a cell renders its value: a number as the format or else the kind says, a day or a text
as itself. That of an absent value is empty.
-/
inductive Rendered (settings : Settings) (kind : Column.Kind) (format : Option Format) :
    Option Value → String → Prop
  | absent : Rendered settings kind format none ""
  | date (d : Date) : Rendered settings kind format (some (.date d)) d.iso
  | text (s : String) : Rendered settings kind format (some (.text s)) s
  | amount {x : Float}
      (h : format = some .currency ∨ format = some .money ∨ format = none ∧ kind = .currency) :
      Rendered settings kind format (some (.float x)) (showCurrency settings.currencySymbol x)
  | share {x : Float} (h : format = some .percent ∨ format = none ∧ kind = .percent) :
      Rendered settings kind format (some (.float x)) (showPercent x)
  | hours {x : Float} (h : format = none ∧ kind = .hours) :
      Rendered settings kind format (some (.float x)) (showHours x)

/-- The pattern of an amount is the text of no day. -/
theorem iso_ne_pattern (symbol : String) (d : Date) : d.iso ≠ symbol ++ numberPattern := by
  intro h
  have mem : 'f' ∈ (symbol ++ numberPattern).toList := by
    rw [String.toList_append, List.mem_append]
    exact .inr (by decide)
  rw [← h] at mem
  exact Date.notMem_iso (by decide) (by decide) d mem

/-- A value is rendered just if it is a number or has no format. -/
theorem rendered_iff (settings : Settings) {kind : Column.Kind} (format : Option Format) {v : Value}
    (hv : kind.Holds v) :
    (∃ text, cell settings kind format (some v) = .ok text ∧
      Rendered settings kind format (some v) text) ↔ format = none ∨ kind.isNumber = true := by
  constructor
  · rintro ⟨text, shown, rendered⟩
    by_contra misfit
    rw [not_or] at misfit
    obtain ⟨format, rfl⟩ := Option.ne_none_iff_exists'.1 misfit.1
    cases hv with
    | date d =>
      cases rendered
      cases format with
      | currency | money => exact iso_ne_pattern _ d (Except.ok.inj shown).symm
      | percent => cases shown
    | text s => cases format <;> cases shown
    | number x h => exact misfit.2 h
  · intro fits
    cases hv with
    | date d =>
      obtain rfl := fits.resolve_right (by decide)
      exact ⟨_, rfl, .date d⟩
    | text s =>
      obtain rfl := fits.resolve_right (by decide)
      exact ⟨_, rfl, .text s⟩
    | number x h =>
      cases format with
      | none =>
        cases kind with
        | hours => exact ⟨_, rfl, .hours ⟨rfl, rfl⟩⟩
        | currency => exact ⟨_, rfl, .amount (.inr (.inr ⟨rfl, rfl⟩))⟩
        | percent => exact ⟨_, rfl, .share (.inr ⟨rfl, rfl⟩)⟩
        | date | text => cases h
      | some format =>
        cases format with
        | currency => exact ⟨_, rfl, .amount (.inl rfl)⟩
        | money => exact ⟨_, rfl, .amount (.inr (.inl rfl))⟩
        | percent => exact ⟨_, rfl, .share (.inl rfl)⟩

/-- The text renders the value of the entry in the column. -/
def Renders (settings : Settings) (e : Entry) (c : ShownColumn) (text : String) : Prop :=
  Rendered settings c.column.kind c.format (c.column.value? settings e) text

/-- The column is shown without a format, or it is one of numbers. -/
def FormatFits (c : ShownColumn) : Prop :=
  c.format = none ∨ c.column.kind.isNumber = true

theorem renders_iff (settings : Settings) (e : Entry) (c : ShownColumn) :
    (∃ text, cell settings c.column.kind c.format (c.column.value? settings e) = .ok text ∧
      Renders settings e c text) ↔ FormatFits c ∨ c.column.value? settings e = none := by
  unfold Renders
  cases hv : c.column.value? settings e with
  | none => exact iff_of_true ⟨"", rfl, .absent⟩ (.inr rfl)
  | some v =>
    rw [rendered_iff settings c.format (Column.holds_of_value? hv)]
    simp [FormatFits]

/-! ## Tables -/

/--
The table has the headers of the columns, and for each entry in order a row whose cells render its
values in these columns.
-/
structure Shows (table : Table) (settings : Settings) (columns : List ShownColumn)
    (entries : List Entry) : Prop where
  headers_eq : table.headers = columns.map header
  rows : List.Forall₂ (fun e => List.Forall₂ (Renders settings e) columns) entries table.rows

/-- The columns that are shown: those that are asked for, or else the default ones. -/
def columnsOrDefault (columns : List ShownColumn) : List ShownColumn :=
  if columns.isEmpty then defaultColumns else columns

variable (settings : Settings) (columns : List ShownColumn) (entries : List Entry)

theorem exists_shows_iff :
    (∃ table, ofEntries settings columns entries = .ok table ∧
      table.Shows settings (columnsOrDefault columns) entries) ↔
    ∀ e ∈ entries, ∀ c ∈ columnsOrDefault columns, FormatFits c ∨
      c.column.value? settings e = none := by
  simp only [← renders_iff settings]
  constructor
  · rintro ⟨table, h, shows⟩ e he
    obtain ⟨rows, hrows, h⟩ := exists_of_bind_ok h
    cases h
    exact exists_mapM_iff.1 (exists_mapM_iff.1 ⟨rows, hrows, shows.rows⟩ e he)
  · intro h
    obtain ⟨rows, hrows, rendered⟩ := exists_mapM_iff.2 fun e he => exists_mapM_iff.2 (h e he)
    refine ⟨⟨(columnsOrDefault columns).map header, rows⟩, ?_, rfl, rendered⟩
    change (entries.mapM (row settings (columnsOrDefault columns)) >>= _) = _
    rw [show entries.mapM (row settings (columnsOrDefault columns)) = .ok rows from hrows]
    rfl

/-- An entry that has a value in every column. -/
def fullEntry : Entry where
  date := ⟨2025, 5, 17, by decide, by decide, by decide, by decide, by decide, by decide⟩
  hours := 7.5
  rate := some 75.0
  project := some "X"
  client := some "Y"
  category := some "Z"
  notes := some ""
  hours_nonneg := by decide +kernel

theorem value?_fullEntry (settings : Settings) (c : Column) :
    c.value? settings fullEntry ≠ none := by
  cases c <;> nofun

/--
Entries are shown in a table, each in a row of its own, just if no format meets a day or a text that
is present. So a query can be shown for any entries just if it gives formats to columns of numbers
only.
-/
theorem shows_iff (columns : List ShownColumn) :
    (∀ settings entries, (∃ table, ofEntries settings columns entries = .ok table ∧
        table.Shows settings (columnsOrDefault columns) entries) ↔
      ∀ e ∈ entries, ∀ c ∈ columnsOrDefault columns, FormatFits c ∨
        c.column.value? settings e = none) ∧
    ((∀ settings entries, ∃ table, ofEntries settings columns entries = .ok table ∧
        table.Shows settings (columnsOrDefault columns) entries) ↔
      ∀ c ∈ columnsOrDefault columns, FormatFits c) := by
  refine ⟨fun settings entries => exists_shows_iff settings columns entries, ?_⟩
  simp only [exists_shows_iff]
  constructor
  · intro shown c hc
    have full := shown .default [fullEntry] fullEntry (List.mem_singleton_self _) c hc
    exact full.resolve_right (value?_fullEntry .default c.column)
  · intro fits settings entries e _ c hc
    exact .inl (fits c hc)

/--
Queries are compiled whose formats meet a day: as an amount of money it is shown as the pattern of
the format, and as a percentage there is no table. Nor is there one for a text.
-/
theorem exists_unshown :
    let money := "SHOW date FORMAT money"
    let percent := "SHOW date FORMAT percent"
    let text := "SHOW project FORMAT currency"
    let pattern : Table := ⟨["Date"], [["€,.2f"]]⟩
    (∃ q, Query.compile .standard money = .ok q ∧
      ofEntries .default q.shown [fullEntry] = .ok pattern ∧
      ¬ pattern.Shows .default q.shown [fullEntry]) ∧
    (∃ q, Query.compile .standard percent = .ok q ∧
      ofEntries .default q.shown [fullEntry] = .error .kindMismatch) ∧
    (∃ q, Query.compile .standard text = .ok q ∧
      ofEntries .default q.shown [fullEntry] = .error .notFormattable) := by
  intro money percent text pattern
  let day : ShownColumn := ⟨.date, none, some .money⟩
  refine ⟨⟨{ columns := some [day] }, ?_, ?_, ?_⟩,
    ⟨{ columns := some [⟨.date, none, some .percent⟩] }, ?_, ?_⟩,
    ⟨{ columns := some [⟨.project, none, some .currency⟩] }, ?_, ?_⟩⟩
  · exact ok_of_toOption (by decide +kernel)
  · rfl
  · intro shown
    have fits := (exists_shows_iff .default [day] [fullEntry]).1 ⟨pattern, rfl, shown⟩ fullEntry
      (List.mem_singleton_self _) day (List.mem_singleton_self _)
    rcases fits with (none | number) | absent
    · cases none
    · cases number
    · cases absent
  · exact ok_of_toOption (by decide +kernel)
  · rfl
  · exact ok_of_toOption (by decide +kernel)
  · rfl

end Table

end Worklog
