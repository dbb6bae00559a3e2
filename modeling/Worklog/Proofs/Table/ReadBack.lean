import Worklog.CommandLine
import Worklog.Proofs.Table.Plain

/-!
# Reading a printed table back

A table is printed with a line feed behind each row and a tab between each two cells of it. Parted
at line feeds and then at tabs (`rowsOf`), the text gives the table back just if its headers and
cells are plain (`rowsOf_tableText_iff`): neither character is escaped, and a part of the text has
none of them. So what `run` prints as a table is read back just if all that the table takes over
from the query, the entries and the settings is plain (`read_back_iff`), which is not so for notes
with a tab (`exists_not_read_back`).
-/

namespace Worklog

/-! ## Parts of a text -/

theorem mem_intercalate {α : Type} {a : α} {sep : List α} :
    ∀ {ls : List (List α)}, a ∈ sep.intercalate ls → a ∈ sep ∨ ∃ l ∈ ls, a ∈ l
  | [], h => by simp at h
  | [l], h => .inr ⟨l, List.mem_singleton_self l, by simpa using h⟩
  | l :: m :: ls, h => by
    rw [List.intercalate_cons_cons, List.mem_append, List.mem_append] at h
    rcases h with (here | between) | later
    · exact .inr ⟨l, List.mem_cons_self .., here⟩
    · exact .inl between
    · exact (mem_intercalate later).imp_right fun ⟨l', mem, ha⟩ =>
        ⟨l', List.mem_cons_of_mem l mem, ha⟩

/-- A part has only what the whole has, and not what parts it. -/
theorem mem_of_mem_splitOn {α : Type} [BEq α] [LawfulBEq α] {a : α} {xs part : List α}
    (h : part ∈ xs.splitOn a) : a ∉ part ∧ ∀ x ∈ part, x ∈ xs := by
  induction xs generalizing part with
  | nil =>
    rw [List.splitOn_nil, List.mem_singleton] at h
    subst h
    exact ⟨nofun, nofun⟩
  | cons x xs ih =>
    have later : ∀ {part}, part ∈ xs.splitOn a → a ∉ part ∧ ∀ y ∈ part, y ∈ x :: xs :=
      fun h => (ih h).imp_right fun all y mem => List.mem_cons_of_mem x (all y mem)
    rw [List.splitOn_cons_eq_if_modifyHead] at h
    split at h
    · rcases List.mem_cons.1 h with rfl | h
      · exact ⟨nofun, nofun⟩
      · exact later h
    · rename_i differ
      obtain ⟨first, rest, parts⟩ := List.exists_cons_of_ne_nil (List.splitOn_ne_nil a xs)
      rw [parts, List.modifyHead_cons, List.mem_cons] at h
      rcases h with rfl | h
      · obtain ⟨free, all⟩ := later (parts ▸ List.mem_cons_self ..)
        rw [List.mem_cons, not_or, List.forall_mem_cons]
        exact ⟨⟨fun eq => differ (beq_iff_eq.2 eq.symm), free⟩, List.mem_cons_self .., all⟩
      · exact later (parts ▸ List.mem_cons_of_mem first h)

/-- The parts of a text between the places where the character is. -/
def parts (c : Char) (s : String) : List String :=
  (s.toList.splitOn c).map String.ofList

theorem mem_of_mem_parts {c : Char} {s part : String} (h : part ∈ parts c s) :
    c ∉ part.toList ∧ ∀ d ∈ part.toList, d ∈ s.toList := by
  obtain ⟨chars, mem, rfl⟩ := List.mem_map.1 h
  rw [String.toList_ofList]
  exact mem_of_mem_splitOn mem

/-- Texts without the character, joined by it, are the parts of the whole. -/
theorem parts_intercalate {c : Char} {ss : List String} (nonempty : ss ≠ [])
    (free : ∀ s ∈ ss, c ∉ s.toList) : parts c ((String.singleton c).intercalate ss) = ss := by
  unfold parts
  have texts : (ss.map String.toList).map String.ofList = ss := by simp
  rw [String.toList_intercalate, String.toList_singleton, List.splitOn_intercalate c
    (List.forall_mem_map.2 free) (by simpa using nonempty), texts]

/-- Behind the last of the texts that end with the character there is an empty part. -/
theorem parts_join {c : Char} {ss : List String} (free : ∀ s ∈ ss, c ∉ s.toList) :
    parts c (String.join (ss.map (· ++ String.singleton c))) = ss ++ [""] := by
  unfold parts
  rw [String.toList_join, List.flatMap_map]
  induction ss with
  | nil => rfl
  | cons s ss ih =>
    obtain ⟨here, later⟩ := List.forall_mem_cons.1 free
    rw [List.flatMap_cons, String.toList_append, String.toList_singleton, List.append_assoc,
      List.singleton_append, List.splitOn_append_cons_self_of_not_mem here, List.map_cons,
      String.ofList_toList, ih later, List.cons_append]

/-! ## Tables -/

namespace Table

variable {settings : Settings} {columns : List ShownColumn} {entries : List Entry} {t : Table}

theorem columnsOrDefault_ne_nil (columns : List ShownColumn) : columnsOrDefault columns ≠ [] := by
  unfold columnsOrDefault
  split
  · decide
  · rename_i nonempty
    exact fun empty => nonempty (List.isEmpty_iff.2 empty)

/-- A table has a row for each entry. -/
theorem length_rows (h : ofEntries settings columns entries = .ok t) :
    t.rows.length = entries.length := by
  obtain ⟨rows, hrows, h⟩ := exists_of_bind_ok h
  cases h
  exact (mapM_eq_ok_iff.1 hrows).length_eq.symm

/-- Each row has a cell for each header. -/
theorem length_row (h : ofEntries settings columns entries = .ok t) :
    ∀ row ∈ t.rows, row.length = t.headers.length := by
  obtain ⟨rows, hrows, h⟩ := exists_of_bind_ok h
  cases h
  intro row mem
  obtain ⟨e, -, hrow⟩ := exists_of_forall₂ (mapM_eq_ok_iff.1 hrows) row mem
  exact (mapM_eq_ok_iff.1 hrow).length_eq.symm.trans (List.length_map ..).symm

theorem row_ne_nil (h : ofEntries settings columns entries = .ok t) :
    ∀ row ∈ t.headers :: t.rows, row ≠ [] := by
  have headers : t.headers ≠ [] := by
    obtain ⟨rows, -, h⟩ := exists_of_bind_ok h
    cases h
    exact mt List.map_eq_nil_iff.1 (columnsOrDefault_ne_nil columns)
  refine List.forall_mem_cons.2 ⟨headers, fun row mem empty => headers ?_⟩
  rw [← List.length_eq_zero_iff, ← length_row h row mem, empty, List.length_nil]

end Table

namespace CommandLine

/-- The rows of a printed table: its lines, parted at tabs. -/
def rowsOf (text : String) : List (List String) :=
  (parts '\n' text).dropLast.map (parts '\t')

theorem plain_of_mem_rowsOf {text s : String} {row : List String} (hrow : row ∈ rowsOf text)
    (hs : s ∈ row) : Plain s := by
  obtain ⟨line, hline, rfl⟩ := List.mem_map.1 hrow
  obtain ⟨tab, within⟩ := mem_of_mem_parts hs
  obtain ⟨feed, -⟩ := mem_of_mem_parts (List.mem_of_mem_dropLast hline)
  exact ⟨tab, fun mem => feed (within _ mem)⟩

theorem rowsOf_join {rows : List (List String)} (nonempty : ∀ row ∈ rows, row ≠ [])
    (plain : ∀ row ∈ rows, ∀ s ∈ row, Plain s) : rowsOf (String.join (rows.map line)) = rows := by
  have lines : rows.map line =
      (rows.map fun row => "\t".intercalate row).map (· ++ String.singleton '\n') := by
    rw [List.map_map]
    rfl
  have free : ∀ l ∈ rows.map fun row => "\t".intercalate row, '\n' ∉ l.toList := by
    rw [List.forall_mem_map]
    intro row hrow mem
    rw [String.toList_intercalate] at mem
    rcases mem_intercalate mem with tab | ⟨chars, hchars, feed⟩
    · exact absurd tab (by decide)
    · obtain ⟨s, hs, rfl⟩ := List.mem_map.1 hchars
      exact (plain row hrow s hs).2 feed
  unfold rowsOf
  rw [lines, parts_join free, List.dropLast_concat, List.map_map]
  refine (List.map_congr_left fun row hrow => ?_).trans (List.map_id' rows)
  exact parts_intercalate (nonempty row hrow) fun s hs => (plain row hrow s hs).1

/-- A table whose rows have cells is read back just if its headers and cells are plain. -/
theorem rowsOf_tableText_iff {t : Table} (nonempty : ∀ row ∈ t.headers :: t.rows, row ≠ []) :
    rowsOf (tableText t) = t.headers :: t.rows ↔
      ∀ row ∈ t.headers :: t.rows, ∀ s ∈ row, Plain s := by
  refine ⟨fun h row hrow s => plain_of_mem_rowsOf (h ▸ hrow), fun plain => ?_⟩
  exact rowsOf_join nonempty plain

/-! ## Runs -/

/--
A run that comes to a table: the records are entries, the settings are sound, the query compiles
and is answered, and the entries of the answer can be shown.
-/
structure TableRun (file : String) (records : Json) (environment : List (String × String))
    (today : Date) where
  entries : List Entry
  settings : Settings
  query : Query
  report : Report
  table : Table
  read : readEntries records = .ok entries
  settled : (Settings.ofEnvironment environment).toExcept = .ok settings
  compiled : Query.compile .standard (queryText file) = .ok query
  answered : runQuery .standard settings today entries (queryText file) = .ok report
  shown : Table.ofEntries settings query.shown report.entries = .ok table

section Run

variable {file : String} {records : Json} {environment : List (String × String)} {today : Date}

theorem TableRun.run_eq (r : TableRun file records environment today) :
    run file records environment true today = .ok { status := 0, output := tableText r.table } := by
  unfold run
  rw [r.read, r.settled]
  change orReport _ = _
  rw [r.answered, r.compiled]
  change orReport (Table.ofEntries r.settings r.query.shown r.report.entries >>= _) = _
  rw [r.shown]
  rfl

theorem exists_of_orReport {x : Except Failure String} {o : Outcome} (h : orReport x = .ok o)
    (success : o.status = 0) : ∃ output, x = .ok output := by
  unfold orReport at h
  split at h
  · exact ⟨_, rfl⟩
  · cases h
    cases success
  · cases h

/-- The runs that come to a table are those that succeed. -/
theorem exists_tableRun_iff :
    Nonempty (TableRun file records environment today) ↔
      ∃ o, run file records environment true today = .ok o ∧ o.status = 0 := by
  constructor
  · rintro ⟨r⟩
    exact ⟨_, r.run_eq, rfl⟩
  · rintro ⟨o, h, success⟩
    obtain ⟨entries, read, h⟩ := exists_of_bind_ok h
    obtain ⟨settings, settled, h⟩ := exists_of_bind_ok h
    obtain ⟨output, h⟩ := exists_of_orReport h success
    obtain ⟨report, answered, h⟩ := exists_of_bind_ok h
    obtain ⟨query, compiled, h⟩ := exists_of_bind_ok h
    obtain ⟨table, shown, -⟩ := exists_of_bind_ok h
    exact ⟨⟨entries, settings, query, report, table, read, settled, compiled, answered, shown⟩⟩

/--
A run that comes to a table prints it with a row for each entry of the answer, behind that of the
headers, and in each row a cell for each column. The headers and rows are read back from the output
just if they are plain, and that is the case just if the titles of the columns, the texts shown and
the currency symbol, if a value is shown behind it, are plain.
-/
theorem read_back_iff (r : TableRun file records environment today) :
    ∃ output, run file records environment true today = .ok { status := 0, output } ∧
      r.table.rows.length = r.report.entries.length ∧
      (∀ row ∈ r.table.rows, row.length = r.table.headers.length) ∧
      (rowsOf output = r.table.headers :: r.table.rows ↔
        ∀ row ∈ r.table.headers :: r.table.rows, ∀ s ∈ row, Plain s) ∧
      ((∀ row ∈ r.table.headers :: r.table.rows, ∀ s ∈ row, Plain s) ↔
        Table.TakesOnlyPlain r.settings (Table.columnsOrDefault r.query.shown) r.report.entries) :=
  ⟨tableText r.table, r.run_eq, Table.length_rows r.shown, Table.length_row r.shown,
    rowsOf_tableText_iff (Table.row_ne_nil r.shown), Table.forall_plain_iff r.shown⟩

end Run

section Examples

theorem exists_tableRun {file : String} {records : Json} {entries found : List Entry}
    {query : Query} {today : Date} {table : Table}
    (read : (readEntries records).toOption = some entries)
    (compiled : (Query.compile .standard (queryText file)).toOption = some query)
    (answered : (runQuery .standard .default today entries (queryText file)).toOption.map
      (·.entries) = some found)
    (shown : (Table.ofEntries .default query.shown found).toOption = some table) :
    ∃ r : TableRun file records [] today, r.table = table := by
  obtain ⟨report, reported, rfl⟩ := Option.map_eq_some_iff.1 answered
  exact ⟨{
    entries
    settings := .default
    query
    report
    table
    read := ok_of_toOption read
    settled := rfl
    compiled := ok_of_toOption compiled
    answered := ok_of_toOption reported
    shown := ok_of_toOption shown }, rfl⟩

/-- An entry with a value in every column, its notes as given. -/
def reviewed (notes : String) : Entry :=
  { Table.fullEntry with notes := some notes }

/-- The record of such an entry. -/
def reviewRecord (notes : String) : Json :=
  .object [("date", .string "2025-05-17"), ("hours", .float 7.5), ("rate", .int 75),
    ("project", .string "X"), ("client", .string "Y"), ("category", .string "Z"),
    ("notes", .string notes)]

/-- Two entries with plain notes are read back cell by cell, in their order. -/
theorem read_back_review :
    let file := "SHOW date, notes AS 'What was done', invoiced"
    let records : Json := .array [reviewRecord "proofs", reviewRecord "code review"]
    ∃ output, run file records [] true Table.fullEntry.date = .ok { status := 0, output } ∧
      rowsOf output = [["Date", "What was done", "Invoiced"],
        ["2025-05-17", "code review", "€562.50"], ["2025-05-17", "proofs", "€562.50"]] := by
  intro file records
  let query : Query :=
    { columns := some [{ column := .date }, { column := .notes, title := some "What was done" },
        { column := .invoiced }] }
  let table : Table :=
    ⟨["Date", "What was done", "Invoiced"],
      [["2025-05-17", "code review", "€562.50"], ["2025-05-17", "proofs", "€562.50"]]⟩
  have read : (readEntries records).toOption =
      some [reviewed "proofs", reviewed "code review"] := by
    decide +kernel
  have compiled : (Query.compile .standard (queryText file)).toOption = some query := by
    decide +kernel
  have answered : (runQuery .standard .default Table.fullEntry.date
      [reviewed "proofs", reviewed "code review"] (queryText file)).toOption.map (·.entries) =
        some [reviewed "code review", reviewed "proofs"] := by
    decide +kernel
  have rendered : (Table.ofEntries .default query.shown
      [reviewed "code review", reviewed "proofs"]).toOption = some table := by
    decide +kernel
  obtain ⟨r, shown⟩ := exists_tableRun read compiled answered rendered
  obtain ⟨output, h, -, -, back, -⟩ := read_back_iff r
  rw [shown] at back
  exact ⟨output, h, back.2 (by decide)⟩

/-- Notes with a tab are read back as two cells. -/
theorem exists_not_read_back :
    let records : Json := .array [reviewRecord "code\treview"]
    ∃ r : TableRun "SHOW notes" records [] Table.fullEntry.date,
      r.table = ⟨["Notes"], [["code\treview"]]⟩ ∧
      ∃ output, run "SHOW notes" records [] true Table.fullEntry.date =
        .ok { status := 0, output } ∧
      rowsOf output = [["Notes"], ["code", "review"]] ∧
      rowsOf output ≠ r.table.headers :: r.table.rows := by
  intro records
  let entries : List Entry := [reviewed "code\treview"]
  let query : Query := { columns := some [{ column := .notes }] }
  have read : (readEntries records).toOption = some entries := by decide +kernel
  have compiled : (Query.compile .standard (queryText "SHOW notes")).toOption = some query := by
    decide +kernel
  have answered : (runQuery .standard .default Table.fullEntry.date entries
      (queryText "SHOW notes")).toOption.map (·.entries) = some entries := by
    decide +kernel
  obtain ⟨r, table⟩ := exists_tableRun read compiled answered rfl
  have back : rowsOf (tableText r.table) = [["Notes"], ["code", "review"]] := by
    rw [table]
    decide +kernel
  refine ⟨r, table, _, r.run_eq, back, ?_⟩
  rw [back, table]
  decide

end Examples

end CommandLine

end Worklog
