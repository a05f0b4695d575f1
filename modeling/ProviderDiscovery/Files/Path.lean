import ProviderDiscovery.Text.Segments

/-!
# Paths

A path is a text in which slashes separate names. Two paths can name the same place although
their texts differ: repeated slashes, a slash at the end and single dots behind the first name do
not count.
-/

namespace ProviderDiscovery

/-- A **path**, as it was written. -/
structure Path where
  /-- The text of the path. -/
  text : String
  deriving DecidableEq, Inhabited

namespace Path

instance : ToString Path := ⟨text⟩

/-- Whether the path starts at the root of the file system. -/
def isAbsolute (p : Path) : Bool := p.text.toList.head? == some '/'

/-- Whether the path ends in a slash, so that it can only name a folder. -/
def endsInSlash (p : Path) : Bool := p.text.toList.getLast? == some '/'

/-- The names between the slashes of the path, dots included. -/
def names (p : Path) : List String :=
  ((Text.segments '/' p.text.toList).filter (· ≠ [])).map String.ofList

/-- The path of `name` seen from `p`. An absolute name stands for itself. -/
def join (p : Path) (name : String) : Path :=
  if (Path.mk name).isAbsolute then ⟨name⟩
  else if p.text = "" || p.endsInSlash then ⟨p.text ++ name⟩
  else ⟨p.text ++ "/" ++ name⟩

/-- The names that count when paths are compared: a single dot does only at the start. -/
def components (p : Path) : List String :=
  match p.names with
  | "." :: rest =>
    if p.isAbsolute then rest.filter (· ≠ ".") else "." :: rest.filter (· ≠ ".")
  | names => names.filter (· ≠ ".")

/-- Whether two paths are equal name by name. -/
def sameAs (p q : Path) : Bool :=
  p.isAbsolute == q.isAbsolute && p.components == q.components

/-- The last name of the path, unless that is a dot or two. -/
def fileName? (p : Path) : Option String :=
  p.components.getLast?.filter fun name => name ≠ "." && name ≠ ".."

/-- What follows the last dot of the last name. A dot at the front of a name hides the file and
starts no extension. -/
def extension? (p : Path) : Option String :=
  p.fileName?.bind fun name =>
    let reversed := name.toList.reverse
    -- From the last dot backwards: no dot, a dot at the front, or a dot behind a character.
    match reversed.dropWhile (· ≠ '.') with
    | [] => none
    | [_] => none
    | _ :: _ :: _ => some (String.ofList (reversed.takeWhile (· ≠ '.')).reverse)

end Path

end ProviderDiscovery
