import ProviderDiscovery.Configuration.Line
import ProviderDiscovery.Text.Lines
import ProviderDiscovery.Text.Utf8

/-!
# Names in a configuration file

A file lists the providers that its lines name, in order and with repetitions. The first line
that is not UTF-8 or is malformed ends the reading; lines are numbered from one.
-/

namespace ProviderDiscovery

/-- Why the names in a file cannot be listed. -/
inductive FileFault where
  /-- A line is not UTF-8. -/
  | undecodable
  /-- A line is malformed. -/
  | malformed (line : Nat) (fault : LineFault)
  deriving DecidableEq

namespace Configuration

/-- The names on the lines of a file, the first of which has the number `n`. -/
def readLines (n : Nat) : List (List UInt8) → Except FileFault (List String)
  | [] => .ok []
  | line :: rest =>
    match Text.Utf8.decode line with
    | none => .error .undecodable
    | some chars =>
      match Line.read chars with
      | .error fault => .error (.malformed n fault)
      | .ok none => readLines (n + 1) rest
      | .ok (some name) => (readLines (n + 1) rest).map (name :: ·)

/-- The names in a file. -/
def names (bytes : List UInt8) : Except FileFault (List String) :=
  readLines 1 (Text.lines bytes)

end Configuration

end ProviderDiscovery
