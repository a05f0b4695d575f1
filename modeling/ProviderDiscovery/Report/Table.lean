import ProviderDiscovery.Text.Segments
import ProviderDiscovery.Text.Width

/-!
# Tables

A table of text cells in a frame of plus signs, bars and dashes. Every column is as wide as its
widest line, every row as high as its highest cell, and a rule follows every row.
-/

namespace ProviderDiscovery.Report

/-- The lines of a cell. -/
def cellLines (cell : String) : List (List Char) := Text.segments '\n' cell.toList

/-- The widest line of a cell. -/
def cellWidth (cell : String) : Nat := ((cellLines cell).map Text.width).foldr max 0

/-- The width of each column. -/
def columnWidths (rows : List (List String)) : List Nat :=
  rows.foldr (fun row widths =>
    row.zipIdx.map fun (cell, i) => max (cellWidth cell) (widths.getD i 0)) []

/-- The rule between rows. -/
def rule (widths : List Nat) : List Char :=
  '+' :: widths.flatMap fun n => List.replicate (n + 2) '-' ++ ['+']

/-- One line of a row: a line of each cell, filled up to the width of its column. -/
def rowLine (widths : List Nat) (line : List (List Char)) : List Char :=
  '|' :: (widths.zip line).flatMap fun (n, s) =>
    ' ' :: s ++ List.replicate (n - Text.width s) ' ' ++ [' ', '|']

/-- The lines of a row. A cell with fewer lines than the row is filled up with empty ones. -/
def rowLines (widths : List Nat) (row : List String) : List (List Char) :=
  let cells := row.map cellLines
  let height := (cells.map List.length).foldr max 0
  (List.range height).map fun i => rowLine widths (cells.map fun lines => lines.getD i [])

/-- A **table** of rows, the first of which is the heading. -/
def table (rows : List (List String)) : String :=
  let widths := columnWidths rows
  let lines := rule widths :: rows.flatMap fun row => rowLines widths row ++ [rule widths]
  String.ofList (['\n'].intercalate lines)

end ProviderDiscovery.Report
