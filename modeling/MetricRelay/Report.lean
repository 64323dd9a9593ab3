import MetricRelay.Snapshot.Basic

/-!
# The report page

The report shows a snapshot as a table, one row for each entry, in the order of types and then of
names.  Texts that come from outside cannot become markup: the five characters with a meaning in
it are written as entities.

Main definitions:

- `Report.escape`: a text inside a cell.
- `Report.render`: the page of a snapshot.
-/

namespace MetricRelay.Report

/-- One character inside a cell. -/
def escapeChar (c : Char) : List Char :=
  if c = '&' then "&amp;".toList
  else if c = '<' then "&lt;".toList
  else if c = '>' then "&gt;".toList
  else if c = '"' then "&quot;".toList
  else if c = '\x27' then "&#39;".toList
  else [c]

/-- A text inside a cell. -/
def escape (s : String) : List Char := s.toList.flatMap escapeChar

/-- A cell. -/
def cell (s : String) : List Char := "<td>".toList ++ escape s ++ "</td>".toList

/-- A row, with the end of its line. -/
def row (x : String × String × String) : List Char :=
  "<tr>".toList ++ cell x.1 ++ cell x.2.1 ++ cell x.2.2 ++ "</tr>\n".toList

/-- The page above the rows. -/
def header : String :=
  "<!DOCTYPE html>\n<html>\n<head><meta charset=\"utf-8\"><title>Metrics</title></head>\n" ++
    "<body>\n<table>\n<tr><th>Type</th><th>Name</th><th>Value</th></tr>\n"

/-- The page below the rows. -/
def footer : String := "</table>\n</body>\n</html>\n"

/-- The page of a snapshot. -/
def render (s : Snapshot) : String :=
  String.ofList (header.toList ++ s.triples.flatMap row ++ footer.toList)

end MetricRelay.Report
