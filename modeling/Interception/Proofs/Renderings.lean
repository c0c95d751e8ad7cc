import Interception.Proofs.Listings
import Interception.Proofs.Written

/-!
# Two renderings of the same statistics

Statistics are rendered as a table for people and as a report for programs. The two agree row by
row and in their totals, and with what the statistics know of each operation
(`Interception.renderings_of_history`).

| | the row of an operation | the totals |
|---|---|---|
| report | `Report.shows_rowValue` | `Report.sum_figures_calls`, `Report.sum_figures_total` |
| table | `Statistics.rowShows_row` | `Statistics.words_totalRow` |

A row of the table is a text, in which the columns are told apart by blanks only. What it shows is
therefore said of its *words* (`Statistics.words`). A display name may have blanks of its own, and
words of its own that look like numbers, but what stands behind it is five words
(`Statistics.RowShows`): those of the other columns, since none of these has a blank inside.

Records and the number of dropped records are put into a report when the rows are there, in any
number and order (`Report.Edit`). They show in members of their own.
-/

namespace Interception

/-! ### Words -/

namespace Statistics

/-- The runs of characters between blanks. -/
def wordsOf (text : List Char) : List (List Char) :=
  (text.splitOnP (· == ' ')).filter (· ≠ [])

/-- **The words of a text**: what stands between blanks. -/
def words (text : String) : List String :=
  (wordsOf text.toList).map String.ofList

theorem wordsOf_nil : wordsOf [] = [] := by
  simp [wordsOf, List.splitOnP_nil]

/-- A blank separates words. -/
theorem wordsOf_append_blank (before after : List Char) :
    wordsOf (before ++ ' ' :: after) = wordsOf before ++ wordsOf after := by
  rw [wordsOf, List.splitOnP_append_cons before after (by decide), List.filter_append]
  rfl

/-- Blanks in front are of no account. -/
theorem wordsOf_replicate_append (count : Nat) (text : List Char) :
    wordsOf (List.replicate count ' ' ++ text) = wordsOf text := by
  induction count with
  | zero => rfl
  | succ count ih =>
    have hblank := wordsOf_append_blank [] (List.replicate count ' ' ++ text)
    rw [wordsOf_nil, List.nil_append, List.nil_append, ih] at hblank
    exact hblank

/-- Blanks behind are of no account. -/
theorem wordsOf_append_replicate (count : Nat) (text : List Char) :
    wordsOf (text ++ List.replicate count ' ') = wordsOf text := by
  cases count with
  | zero => rw [List.replicate_zero, List.append_nil]
  | succ count =>
    have hblanks := wordsOf_replicate_append count []
    rw [List.append_nil, wordsOf_nil] at hblanks
    rw [List.replicate_succ, wordsOf_append_blank, hblanks, List.append_nil]

/-- Where there is no blank, there is one word. -/
theorem wordsOf_of_notMem {text : List Char} (hne : text ≠ []) (h : ' ' ∉ text) :
    wordsOf text = [text] := by
  have hsplit : text.splitOnP (· == ' ') = [text] := by
    refine List.splitOnP_eq_singleton fun c hc => ?_
    rw [beq_eq_false_iff_ne]
    rintro rfl
    exact h hc
  rw [wordsOf, hsplit]
  simp [hne]

/-- **The words of a row** are those of its columns. -/
theorem words_intercalate (columns : List String) :
    words (" ".intercalate columns) = columns.flatMap words := by
  have hchars : ∀ parts : List (List Char),
      wordsOf ([' '].intercalate parts) = parts.flatMap wordsOf := by
    intro parts
    induction parts with
    | nil => exact wordsOf_nil
    | cons part rest ih =>
      cases rest with
      | nil => simp [List.intercalate_singleton]
      | cons next rest =>
        rw [List.intercalate_cons_cons, List.append_assoc, List.singleton_append,
          wordsOf_append_blank, ih]
        rfl
  rw [words, String.toList_intercalate]
  have hblank : " ".toList = [' '] := rfl
  rw [hblank, hchars, List.flatMap_map, List.map_flatMap]
  rfl

theorem words_padRight (width : Nat) (s : String) : words (padRight width s) = words s := by
  rw [words, padRight, String.toList_append, String.toList_ofList, wordsOf_append_replicate, words]

theorem words_replicate_append (count : Nat) (s : String) :
    words (String.ofList (List.replicate count ' ') ++ s) = words s := by
  rw [words, String.toList_append, String.toList_ofList, wordsOf_replicate_append, words]

theorem words_padLeft (width : Nat) (s : String) : words (padLeft width s) = words s :=
  words_replicate_append ..

theorem words_of_notMem {s : String} (hne : s ≠ "") (h : ' ' ∉ s.toList) : words s = [s] := by
  have hchars : s.toList ≠ [] := fun hnil => hne (String.toList_eq_nil_iff.mp hnil)
  rw [words, wordsOf_of_notMem hchars h, List.map_singleton, String.ofList_toList]

/-! ### Columns of numbers -/

theorem blank_notMem_toString (n : Nat) : ' ' ∉ (toString n).toList := by
  have htext : (toString n).toList = Nat.toDigits 10 n := String.toList_ofList
  rw [htext]
  intro hmem
  exact absurd (digit_of_mem_toDigits hmem).1 (by decide)

theorem words_toString (n : Nat) : words (toString n) = [toString n] := by
  refine words_of_notMem (fun hempty => ?_) (blank_notMem_toString n)
  have htext : (toString n).toList = Nat.toDigits 10 n := String.toList_ofList
  rw [hempty] at htext
  exact Nat.toDigits_ne_nil htext.symm

theorem blank_notMem_secondsText (micros : Nat) : ' ' ∉ (secondsText micros).toList := by
  simp only [secondsText, Binary64.places, Binary64.positional, String.toList_append,
    String.toList_ofList, List.mem_append, not_or, List.mem_replicate]
  exact ⟨⟨⟨blank_notMem_toString _, by decide⟩, by simp⟩, blank_notMem_toString _⟩

/-- A column of seconds is one word, with its unit. -/
theorem words_secondsColumn (micros : Nat) :
    words (secondsColumn micros) = [secondsText micros ++ "s"] := by
  rw [secondsColumn, padLeft, String.append_assoc, words_replicate_append]
  refine words_of_notMem (by simp) ?_
  rw [String.toList_append, List.mem_append, not_or]
  exact ⟨blank_notMem_secondsText micros, by decide⟩

/-! ### The table -/

/-- **A row of the table shows an operation and its tally**: it starts with the display name, and
its words are those of the name and five more, from the number of calls to the greatest
duration. -/
structure RowShows (line : String) (key : Key) (tally : Tally) : Prop where
  name : ∃ rest, line = padRight 40 key.display ++ " " ++ rest
  words_eq : words line = words key.display ++
    [toString tally.calls, secondsText tally.total ++ "s", secondsText tally.average ++ "s",
      toString tally.least, toString tally.greatest]

theorem rowShows_row (key : Key) (tally : Tally) : RowShows (row key tally) key tally where
  name := ⟨" ".intercalate
    [padLeft 10 (toString tally.calls), secondsColumn tally.total, secondsColumn tally.average,
      padLeft 12 (toString tally.least), padLeft 12 (toString tally.greatest)], by simp [row]⟩
  words_eq := by
    rw [row, words_intercalate]
    simp only [List.flatMap_cons, List.flatMap_nil, words_padRight, words_padLeft, words_toString,
      words_secondsColumn, List.singleton_append]

/-- The words of the row of the totals. -/
theorem words_totalRow (totals : Totals) :
    words (totalRow totals) =
      ["total", toString totals.calls, secondsText totals.total ++ "s"] := by
  have htotal : words "total" = ["total"] := words_of_notMem (by decide) (by decide)
  rw [totalRow, words_intercalate]
  simp only [List.flatMap_cons, List.flatMap_nil, words_padRight, words_padLeft, words_toString,
    words_secondsColumn, htotal, List.singleton_append]

/-- The rows of operations in the table, in their order. -/
def tableRows (s : Statistics) : List String :=
  s.sorted.map fun entry => row entry.1 entry.2

/-- **The table**: the rows stand between two rules. -/
theorem summary_eq (s : Statistics) :
    s.summary =
      if s.isEmpty then "No instrumentation data collected.\n"
      else heading ++ "\n" ++ rule ++ "\n" ++ String.join (s.tableRows.map (· ++ "\n")) ++
        rule ++ "\n" ++ totalRow s.totals ++ "\n" := by
  rw [summary, summaryLines]
  split
  · rfl
  · simp [String.join_append, tableRows, String.append_assoc]

end Statistics

/-! ### The report -/

namespace Report

/-- **A row of the report shows an operation and its tally**: the operation by its display name and
by its parts, and the tally with its mean. -/
structure Shows (item : Value) (key : Key) (tally : Tally) : Prop where
  operation : item.member? "operation" = some (.string key.display)
  typeName : item.member? "type_name" = some (.string key.typeName)
  operationName : item.member? "operation_name" = some (.string key.operation)
  isInstanceLevel : item.member? "is_instance_level" = some (.bool key.level.isInstance)
  calls : item.member? "calls" = some (.int tally.calls)
  total : item.member? "total_time_us" = some (.int tally.total)
  average : item.member? "avg_time_us" = some (.int tally.average)
  least : item.member? "min_time_us" = some (.int tally.least)
  greatest : item.member? "max_time_us" = some (.int tally.greatest)

theorem shows_rowValue (key : Key) (tally : Tally) : Shows (rowValue key tally) key tally :=
  ⟨rfl, rfl, rfl, rfl, rfl, rfl, rfl, rfl, rfl⟩

/-- The natural number that a member of an object is; zero if it is none. -/
def figure (name : String) (item : Value) : Nat :=
  match item.member? name with
  | some (.int n) => n.toNat
  | _ => 0

/-- The rows of the report of statistics, in their order. -/
def items (s : Statistics) : List Value :=
  s.sorted.map fun entry => rowValue entry.1 entry.2

/-- What the rows of a report say, summed up. -/
theorem sum_figures {name : String} {measure : Tally → Nat} (s : Statistics)
    (h : ∀ key tally, figure name (rowValue key tally) = measure tally) :
    ((items s).map (figure name)).sum = s.tallies.total measure := by
  have hrows : (items s).map (figure name) = s.sorted.map fun entry => measure entry.2 := by
    rw [items, List.map_map]
    exact List.map_congr_left fun entry _ => h entry.1 entry.2
  rw [hrows]
  exact (s.sorted_perm.map _).sum_eq

theorem sum_figures_calls (s : Statistics) :
    ((items s).map (figure "calls")).sum = s.totals.calls := by
  rw [Statistics.calls_totals]
  exact sum_figures s fun _ _ => rfl

theorem sum_figures_total (s : Statistics) :
    ((items s).map (figure "total_time_us")).sum = s.totals.total := by
  rw [Statistics.total_totals]
  exact sum_figures s fun _ _ => rfl

/-! ### What is put into a report -/

/-- **Something that is put into a report** when its rows are there. -/
inductive Edit where
  /-- A record is added. -/
  | add (record : Record)
  /-- It is said how many records were dropped. -/
  | drop (count : Nat)

namespace Edit

/-- The record that is added. -/
def record? : Edit → Option Record
  | .add record => some record
  | .drop _ => none

/-- The number that is said. -/
def count? : Edit → Option Nat
  | .add _ => none
  | .drop count => some count

end Edit

/-- The report with one thing more. -/
def edit (report : Report) : Edit → Report
  | .add record => report.addRecord record
  | .drop count => report.withDropped count

/-- The report with several things more, one after the other. -/
def editAll (report : Report) (edits : List Edit) : Report :=
  edits.foldl edit report

/-- The records that are added, in order. -/
def added (edits : List Edit) : List Record :=
  edits.filterMap Edit.record?

/-- **What edits do to a report**: the records go behind those that are there, the last number that
is said counts, and the rest stays as it is. -/
theorem editAll_eq (report : Report) (edits : List Edit) :
    report.editAll edits =
      { report with
        records := report.records ++ (added edits).toArray
        dropped := (edits.filterMap Edit.count?).getLast?.getD report.dropped } := by
  induction edits generalizing report with
  | nil => simp [editAll, added]
  | cons first rest ih =>
    have hrest : report.editAll (first :: rest) = (report.edit first).editAll rest := rfl
    rw [hrest, ih]
    cases first with
    | add record => simp [edit, addRecord, added, List.filterMap_cons, Edit.record?, Edit.count?]
    | drop count =>
      simp [edit, withDropped, added, List.filterMap_cons, Edit.record?, Edit.count?,
        List.getLast?_cons]

theorem member?_records (report : Report) :
    report.toValue.member? "records" =
      if report.records.toList = [] then none
      else some (.array (report.records.toList.map Record.toValue)) := by
  obtain ⟨⟨records⟩, rows, totalCalls, totalTime, dropped⟩ := report
  cases records <;> rfl

theorem member?_operations (report : Report) :
    report.toValue.member? "operations" =
      some (.array (report.rows.map fun row => rowValue row.1 row.2)) := by
  obtain ⟨⟨records⟩, rows, totalCalls, totalTime, dropped⟩ := report
  cases records <;> rfl

theorem member?_summary (report : Report) :
    report.toValue.member? "summary" = some report.summaryValue := by
  obtain ⟨⟨records⟩, rows, totalCalls, totalTime, dropped⟩ := report
  cases records <;> rfl

end Report

/-! ### Histories -/

/-- **Items of a report and lines of a table that render statistics** with certain entries. -/
structure Statistics.Renders (s : Statistics) (entries : List (Key × Nat)) (items : List Value)
    (lines : List String) : Prop where
  /-- No operation has two rows. -/
  nodup : (s.sorted.map Prod.fst).Nodup
  /-- Just the operations that have an entry have a row. -/
  mem_iff : ∀ key, key ∈ s.sorted.map Prod.fst ↔ ∃ micros, (key, micros) ∈ entries
  /-- There are as many items as rows. -/
  length_items : items.length = s.sorted.length
  /-- So there are lines. -/
  length_lines : lines.length = s.sorted.length
  /-- A row has the tally of its operation, and the item and the line at its place show both. -/
  shows : ∀ (i : Nat) (key : Key) (tally : Tally), s.sorted[i]? = some (key, tally) →
    s.find? key = some tally ∧
      ∃ item line, items[i]? = some item ∧ lines[i]? = some line ∧
        Report.Shows item key tally ∧ RowShows line key tally
  /-- In the table, the lines are between two rules, and below is the row of totals, which are the
  sums over the items. Without entries, the table says so instead. -/
  summary_eq : ∃ last,
    words last =
      ["total", toString (items.map (Report.figure "calls")).sum,
        secondsText (items.map (Report.figure "total_time_us")).sum ++ "s"] ∧
      s.summary =
        if entries = [] then "No instrumentation data collected.\n"
        else heading ++ "\n" ++ rule ++ "\n" ++ String.join (lines.map (· ++ "\n")) ++
          rule ++ "\n" ++ last ++ "\n"

/-- **A report that presents some items**, into which some things were put. -/
structure Report.Presents (report : Report) (items : List Value) (edits : List Report.Edit) :
    Prop where
  /-- Its text is its document. -/
  text_eq : report.text = report.toValue.pretty
  /-- The items are the operations in the document. -/
  operations : report.toValue.member? "operations" = some (.array items)
  /-- Beside them it has a summary. -/
  summary : report.toValue.member? "summary" = some report.summaryValue
  /-- Its totals are the sums over the items. -/
  totalCalls : report.summaryValue.member? "total_calls" =
    some (.int (items.map (figure "calls")).sum)
  totalTime : report.summaryValue.member? "total_time_us" =
    some (.int (items.map (figure "total_time_us")).sum)
  /-- The number of dropped records is the one that was said last. -/
  dropped : report.summaryValue.member? "dropped_records" =
    some (.int ((edits.filterMap Edit.count?).getLast?.getD 0))
  /-- The records are those that were added, in this order. They are not there if there are
  none. -/
  records : report.toValue.member? "records" =
    if added edits = [] then none else some (.array ((added edits).map Record.toValue))

/-- **Statistics are rendered** by the items of their report and the rows of their table. -/
theorem Statistics.Reflects.renders {s : Statistics} {entries : List (Key × Nat)}
    (h : s.Reflects entries) : s.Renders entries (Report.items s) s.tableRows where
  nodup := s.nodup_keys_sorted
  mem_iff := h.mem_keys_sorted_iff
  length_items := List.length_map _
  length_lines := List.length_map _
  shows i key tally hrow := by
    refine ⟨mem_sorted_iff.mp (List.mem_of_getElem? hrow), Report.rowValue key tally,
      row key tally, ?_, ?_, Report.shows_rowValue key tally, rowShows_row key tally⟩
    · rw [Report.items, List.getElem?_map, hrow, Option.map_some]
    · rw [tableRows, List.getElem?_map, hrow, Option.map_some]
  summary_eq := by
    refine ⟨totalRow s.totals, ?_, ?_⟩
    · rw [words_totalRow, Report.sum_figures_calls, Report.sum_figures_total]
    · rw [Statistics.summary_eq]
      simp only [h.isEmpty_iff]

/-- **The report of statistics presents their items**, whatever is put into it. -/
theorem Report.presents_editAll (s : Statistics) (edits : List Edit) :
    ((ofStatistics s).editAll edits).Presents (items s) edits where
  text_eq := rfl
  operations := by
    rw [member?_operations, editAll_eq]
    rfl
  summary := member?_summary _
  totalCalls := by
    rw [sum_figures_calls, editAll_eq]
    rfl
  totalTime := by
    rw [sum_figures_total, editAll_eq]
    rfl
  dropped := by
    rw [editAll_eq]
    rfl
  records := by
    rw [member?_records, editAll_eq]
    simp [ofStatistics, empty]

/-- **The table and the report agree with the statistics and with each other**, after any history.

* There is one row in either for each operation that has an entry, in the order of rows. The rows at
  the same place show the same operation with the same tally, which is the one that the statistics
  have for it. The table has them between two rules.
* The totals of the report are the sums over its rows, and the row of totals of the table shows the
  same two numbers.
* Whatever records and numbers of dropped records are put into the report, the rows and the totals
  stay. The records come in the order in which they were added, in a member that is there only if
  there are any. -/
theorem renderings_of_history (inputs : List Statistics.Input) :
    ∃ items lines,
      (Statistics.after inputs).Renders (Statistics.entriesOf inputs) items lines ∧
        ∀ edits, ((Report.ofStatistics (Statistics.after inputs)).editAll edits).Presents items
          edits :=
  ⟨_, _, (Statistics.Reflects.after inputs).renders, Report.presents_editAll _⟩

end Interception
