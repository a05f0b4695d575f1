import ProviderDiscovery.Text.Blank
import ProviderDiscovery.Text.Quoted

/-!
# Capabilities and resources

A **capability** is what providers are looked up for. It is named by an identifier, which also
names the configuration files that list its providers. A **resource** is such a file, or a part
of an archive or of the memory that stands for one.
-/

namespace ProviderDiscovery

/-- The folder of configuration files, in every scope. -/
def servicesPrefix : String := "META-INF/services/"

/-- The **identifier of a capability**. Any text can be one; only a qualified name can be
located. -/
structure CapabilityId where
  /-- The identifier itself. -/
  text : String
  deriving DecidableEq, Inhabited

namespace CapabilityId

instance : ToString CapabilityId := ⟨text⟩

/-- Whether the identifier holds nothing but blanks. -/
def isBlank (c : CapabilityId) : Bool := c.text.toList.all Text.isBlank

/-- The name of the configuration files for the capability, in every scope. -/
def resourceName (c : CapabilityId) : String := servicesPrefix ++ c.text

/-- Identifiers are ordered as their texts are, character by character. -/
def le (c d : CapabilityId) : Bool := c.text ≤ d.text

/-- A description that shows the identifier in quotes. -/
def describe (c : CapabilityId) : String := "CapabilityId(" ++ Text.quote c.text ++ ")"

/-- A description of the capability that the identifier names. -/
def describeCapability (c : CapabilityId) : String :=
  "Capability \x7b id: " ++ c.describe ++ " \x7d"

end CapabilityId

/-- The **identifier of a resource**: where it was found. -/
structure ResourceId where
  /-- The identifier itself. -/
  text : String
  deriving DecidableEq, Inhabited

namespace ResourceId

instance : ToString ResourceId := ⟨text⟩

/-- A description that shows the identifier in quotes. -/
def describe (r : ResourceId) : String := "ResourceId(" ++ Text.quote r.text ++ ")"

end ResourceId

end ProviderDiscovery
