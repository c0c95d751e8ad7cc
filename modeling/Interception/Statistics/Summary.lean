import Interception.Binary64.Places
import Interception.Statistics

/-!
# The summary table

Statistics as a table for people: a heading, one row per operation, and a row
with the totals, with a rule above and below the rows of operations. Columns are
counted in characters. A name that is longer than its column pushes the others to
the right.
-/

namespace Interception

namespace Statistics

/-- The text with blanks behind it, up to a width. -/
def padRight (width : Nat) (s : String) : String :=
  s ++ String.ofList (List.replicate (width - s.length) ' ')

/-- The text with blanks in front of it, up to a width. -/
def padLeft (width : Nat) (s : String) : String :=
  String.ofList (List.replicate (width - s.length) ' ') ++ s

/-- Microseconds as seconds with six decimals. The quotient is rounded to a
floating-point number first, and its decimals are those of that number. -/
def secondsText (micros : Nat) : String :=
  ((Binary64.ofNat micros).divNat 1000000).places 6

/-- A column of seconds. -/
def secondsColumn (micros : Nat) : String :=
  padLeft 11 (secondsText micros) ++ "s"

/-- The heading of the table. -/
def heading : String :=
  " ".intercalate
    [padRight 40 "Operation", padLeft 10 "Calls", padLeft 12 "Total Time", padLeft 12 "Avg Time",
      padLeft 12 "Min (us)", padLeft 12 "Max (us)"]

/-- The rule above and below the rows. -/
def rule : String :=
  String.ofList (List.replicate 103 '─')

/-- The row of one operation. -/
def row (key : Key) (tally : Tally) : String :=
  " ".intercalate
    [padRight 40 key.display, padLeft 10 (toString tally.calls), secondsColumn tally.total,
      secondsColumn tally.average, padLeft 12 (toString tally.least),
      padLeft 12 (toString tally.greatest)]

/-- The row of the totals. -/
def totalRow (totals : Totals) : String :=
  " ".intercalate
    [padRight 40 "total", padLeft 10 (toString totals.calls), secondsColumn totals.total]

/-- The lines of the table. -/
def summaryLines (s : Statistics) : List String :=
  if s.isEmpty then ["No instrumentation data collected."]
  else
    [heading, rule] ++ s.sorted.map (fun entry => row entry.1 entry.2) ++
      [rule, totalRow s.totals]

/-- **The summary table.** -/
def summary (s : Statistics) : String :=
  String.join (s.summaryLines.map (· ++ "\n"))

/-- The frame around the title of a summary on a terminal. -/
def banner : String :=
  "\n╔" ++ String.ofList (List.replicate 80 '═') ++ "╗\n" ++
  "║" ++ padRight 80 "  Intercepted Operation Summary (sorted by total time)" ++ "║\n" ++
  "╚" ++ String.ofList (List.replicate 80 '═') ++ "╝\n\n"

end Statistics

end Interception
