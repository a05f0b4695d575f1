import ProviderDiscovery.Name
import ProviderDiscovery.Text.Blank

/-!
# Lines of a configuration file

A line names at most one provider. A number sign starts a comment, blanks around the name are
dropped, and a line without a name is skipped.
-/

namespace ProviderDiscovery

/-- What is wrong with a line. -/
inductive LineFault where
  /-- The line holds more than one word. -/
  | illegalSyntax
  /-- The one word of the line is not a qualified name. -/
  | illegalName (name : String)
  deriving DecidableEq

/-- The text that reports the fault. -/
def LineFault.message : LineFault → String
  | .illegalSyntax => "Illegal configuration-file syntax"
  | .illegalName name => "Illegal provider-class name: " ++ name

namespace Line

/-- What a line holds apart from its comment and the blanks around. -/
def content (line : List Char) : List Char := Text.trim (line.takeWhile (· != '#'))

/-- The provider that a line names, if it names one. -/
def read (line : List Char) : Except LineFault (Option String) :=
  let word := content line
  if word = [] then .ok none
  else if word.any Text.isBlank then .error .illegalSyntax
  else if isQualified word then .ok (some (String.ofList word))
  else .error (.illegalName (String.ofList word))

end Line

end ProviderDiscovery
