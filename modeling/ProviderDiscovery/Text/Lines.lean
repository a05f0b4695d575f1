import ProviderDiscovery.Text.Segments

/-!
# Lines of a file

A line ends at a line feed, which a carriage return may precede. What follows the last line feed
is a line of its own unless it is empty, and it keeps a carriage return at its end.
-/

namespace ProviderDiscovery.Text

/-- The line feed. -/
def lineFeed : UInt8 := 0x0a

/-- The carriage return. -/
def carriageReturn : UInt8 := 0x0d

/-- A line without the carriage return before its line feed. -/
def dropReturn (line : List UInt8) : List UInt8 :=
  if line.getLast? = some carriageReturn then line.dropLast else line

/-- The lines among the segments between line feeds: the last segment was not ended by one. -/
def linesOfSegments : List (List UInt8) → List (List UInt8)
  | [] => []
  | [unfinished] => if unfinished = [] then [] else [unfinished]
  | line :: rest => dropReturn line :: linesOfSegments rest

/-- The lines of a file. -/
def lines (bytes : List UInt8) : List (List UInt8) := linesOfSegments (segments lineFeed bytes)

/-- The lines of a file whose end cannot be read: only those that a line feed has ended. -/
def endedLines (bytes : List UInt8) : List (List UInt8) :=
  (segments lineFeed bytes).dropLast.map dropReturn

/-- A segment with others behind it was ended by a line feed. -/
theorem linesOfSegments_cons {line : List UInt8} {rest : List (List UInt8)} (h : rest ≠ []) :
    linesOfSegments (line :: rest) = dropReturn line :: linesOfSegments rest := by
  cases rest with
  | nil => exact absurd rfl h
  | cons s more => rfl

end ProviderDiscovery.Text
