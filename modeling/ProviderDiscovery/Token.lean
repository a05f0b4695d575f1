import ProviderDiscovery.Text.Quoted

/-!
# Tokens

What is kept of an authority that was captured. A token has a label for its reader; what else it
carries is for whoever gave it.
-/

namespace ProviderDiscovery

/-- What a token carries besides its label. -/
inductive Payload where
  /-- A number. -/
  | number (n : Nat)
  /-- A text. -/
  | text (s : String)
  /-- Neither. -/
  | other
  deriving DecidableEq

/-- A **token** of captured authority. -/
structure Token where
  /-- The label of the token. -/
  label : String
  /-- What it carries. -/
  payload : Payload
  deriving DecidableEq

/-- A description that shows the label in quotes. -/
def Token.describe (t : Token) : String := "PrivilegeToken(" ++ Text.quote t.label ++ ")"

end ProviderDiscovery
