import Interception.Json.Writer
import Interception.Statistics

/-!
# The report

A `Report` is the machine-readable account of a run: the tally of every
operation, the totals, how many records were lost to a full collector, and, where
they were asked for, the records themselves.
-/

namespace Interception

/-- **The account of a run.** -/
structure Report where
  /-- The records asked for, in the order in which they were added. -/
  records : Array Record
  /-- One row per operation. -/
  rows : List (Key × Tally)
  /-- How many calls the rows have together. -/
  totalCalls : Nat
  /-- How long these took together, in microseconds. -/
  totalTime : Nat
  /-- How many records were dropped. -/
  dropped : Nat
deriving Inhabited

namespace Report

/-- The version of the report's format and of the program. -/
def version : String :=
  "0.1.0"

/-- The name of the format. -/
def format : String :=
  "interpose-json-v1"

/-- The report of nothing. -/
def empty : Report :=
  { records := #[], rows := [], totalCalls := 0, totalTime := 0, dropped := 0 }

/-- **The report of statistics**: rows in their order, and their totals. -/
def ofStatistics (s : Statistics) : Report :=
  { empty with rows := s.sorted, totalCalls := s.totals.calls, totalTime := s.totals.total }

/-- Adds a record. -/
def addRecord (report : Report) (record : Record) : Report :=
  { report with records := report.records.push record }

/-- Says how many records were dropped. -/
def withDropped (report : Report) (dropped : Nat) : Report :=
  { report with dropped }

/-- A row as a document. -/
def rowValue (key : Key) (tally : Tally) : Value :=
  .object
    [("operation", .string key.display), ("type_name", .string key.typeName),
      ("operation_name", .string key.operation),
      ("is_instance_level", .bool key.level.isInstance), ("calls", .int tally.calls),
      ("total_time_us", .int tally.total), ("avg_time_us", .int tally.average),
      ("min_time_us", .int tally.least), ("max_time_us", .int tally.greatest)]

/-- The totals as a document. -/
def summaryValue (report : Report) : Value :=
  .object
    [("total_calls", .int report.totalCalls), ("total_time_us", .int report.totalTime),
      ("dropped_records", .int report.dropped)]

/-- The report as a document. Records are a member only if there are any. -/
def toValue (report : Report) : Value :=
  .object <|
    [("version", .string version), ("format", .string format)] ++
    (if report.records.isEmpty then []
    else [("records", .array (report.records.toList.map Record.toValue))]) ++
    [("operations", .array (report.rows.map fun row => rowValue row.1 row.2)),
      ("summary", report.summaryValue)]

/-- **The text of the report.** -/
def text (report : Report) : String :=
  report.toValue.pretty

end Report

end Interception
