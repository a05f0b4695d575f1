/-!
# JSON reports

Reports in JSON, indented by two spaces a level. A report holds texts, numbers, lists, and
records whose fields keep their order.
-/

namespace ProviderDiscovery.Report

/-- A value of a report. -/
inductive Json where
  /-- A number. -/
  | number (n : Nat)
  /-- A text. -/
  | text (s : String)
  /-- A list. -/
  | list (values : List Json)
  /-- A record. -/
  | record (fields : List (String × Json))

namespace Json

/-- Four hexadecimal digits. -/
def fourDigits (n : Nat) : List Char :=
  let digits := Nat.toDigits 16 n
  List.replicate (4 - digits.length) '0' ++ digits

/-- One character of a text. Quotation marks, backslashes and controls are escaped. -/
def escapeChar (c : Char) : List Char :=
  if c = '"' then ['\\', '"']
  else if c = '\\' then ['\\', '\\']
  else if c = '\x08' then ['\\', 'b']
  else if c = '\t' then ['\\', 't']
  else if c = '\n' then ['\\', 'n']
  else if c = '\x0c' then ['\\', 'f']
  else if c = '\r' then ['\\', 'r']
  else if c.toNat < 0x20 then ['\\', 'u'] ++ fourDigits c.toNat
  else [c]

/-- A text between quotation marks. -/
def renderText (s : String) : List Char := '"' :: s.toList.flatMap escapeChar ++ ['"']

/-- The start of a line at a level. -/
def newLine (level : Nat) : List Char := '\n' :: List.replicate (2 * level) ' '

/-- Parts between two brackets, each on lines of its own; nothing stands between the brackets of
an empty list. -/
def bracket (level : Nat) (left right : Char) (parts : List (List Char)) : List Char :=
  if parts = [] then [left, right]
  else
    left :: [','].intercalate (parts.map (newLine (level + 1) ++ ·)) ++ newLine level ++ [right]

mutual

/-- The text of a value at a level. -/
def renderAt (level : Nat) : Json → List Char
  | .number n => (toString n).toList
  | .text s => renderText s
  | .list values => bracket level '[' ']' (renderValues (level + 1) values)
  | .record fields => bracket level '\x7b' '\x7d' (renderFields (level + 1) fields)

/-- The texts of values at a level. -/
def renderValues (level : Nat) : List Json → List (List Char)
  | [] => []
  | v :: rest => renderAt level v :: renderValues level rest

/-- The texts of fields at a level. -/
def renderFields (level : Nat) : List (String × Json) → List (List Char)
  | [] => []
  | (name, v) :: rest => (renderText name ++ [':', ' '] ++ renderAt level v) ::
      renderFields level rest

end

/-- The text of a report. -/
def render (v : Json) : String := String.ofList (renderAt 0 v)

end Json

end ProviderDiscovery.Report
