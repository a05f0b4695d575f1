import ProviderDiscovery.Text.Alphabetic
import ProviderDiscovery.Text.Numeric

/-!
# Qualified names

Providers and capabilities go by names such as `com.acme.Codec`: an identifier start, followed by
identifier parts and dots in any order. Neither a slash nor a blank can stand in such a name, so a
name that is used as a file name stays in its folder.
-/

namespace ProviderDiscovery

open Text

/-- Whether an identifier may start with a character. -/
def isIdentifierStart (c : Char) : Bool := isAlphabetic c || c == '_' || c == '$'

/-- Whether an identifier may go on with a character. -/
def isIdentifierPart (c : Char) : Bool := isIdentifierStart c || isNumeric c

/-- Whether a list of characters is a **qualified name**. -/
def isQualified : List Char → Bool
  | [] => false
  | c :: rest => isIdentifierStart c && rest.all fun c => isIdentifierPart c || c == '.'

/-- Whether a text is a qualified name. -/
def isQualifiedName (name : String) : Bool := isQualified name.toList

end ProviderDiscovery
