import ProviderDiscovery.Capability
import ProviderDiscovery.Configuration.Line

/-!
# Causes of failure

Every failure is a value that says what went wrong; its text is computed from it in one place.
There are three layers: bytes that cannot be read, a scope that cannot say which resources it
has, and a discovery that cannot go on.
-/

namespace ProviderDiscovery

/-- Why bytes could not be read. -/
inductive ReadFault where
  /-- Nothing has the path. -/
  | notFound
  /-- A path goes on behind something that is not a folder. -/
  | notADirectory
  /-- A folder was read as a file. -/
  | isADirectory
  /-- A path, or a name in it, is longer than a file system keeps. -/
  | nameTooLong
  /-- A path holds the null character. -/
  | nullInPath
  /-- A line is not UTF-8. -/
  | invalidUtf8
  /-- Any other cause, by its text. -/
  | other (text : String)
  deriving DecidableEq

/-- The text that reports why bytes could not be read. -/
def ReadFault.message : ReadFault → String
  | .notFound => "No such file or directory (os error 2)"
  | .notADirectory => "Not a directory (os error 20)"
  | .isADirectory => "Is a directory (os error 21)"
  | .nameTooLong => "File name too long (os error 36)"
  | .nullInPath => "file name contained an unexpected NUL byte"
  | .invalidUtf8 => "stream did not contain valid UTF-8"
  | .other text => text

/-- Why the archive in a file could not be opened. -/
structure ArchiveFault where
  /-- The path of the file. -/
  location : String
  /-- What the reader of archives says. -/
  cause : ReadFault
  deriving DecidableEq

/-- Why a scope could not say which resources it has. -/
inductive ScopeError where
  /-- The identifier of the capability is not a qualified name. -/
  | invalidIdentifier (id : String)
  /-- The scope does not answer such questions. -/
  | unsupported (what : String)
  /-- Something that the scope is made of could not be read. -/
  | io (location : String) (cause : ReadFault)
  /-- An archive could not be opened. -/
  | archive (fault : ArchiveFault)
  deriving DecidableEq

namespace ScopeError

/-- The text that reports the failure of a scope. -/
def message : ScopeError → String
  | .invalidIdentifier id => "invalid capability identifier: " ++ Text.quote id
  | .unsupported what => "unsupported discovery scope: " ++ what
  | .io location cause => "I/O error at " ++ location ++ ": " ++ cause.message
  | .archive fault => "unreadable archive " ++ fault.location ++ ": " ++ fault.cause.message

/-- The text of the failure behind this one, if there is one. -/
def source : ScopeError → Option String
  | .io _ cause => some cause.message
  | _ => none

end ScopeError

/-- Why a discovery could not go on. -/
inductive DiscoveryFault where
  /-- The configuration files could not be located. -/
  | scope (cause : ScopeError)
  /-- A line of a configuration file is malformed. -/
  | malformed (resource : ResourceId) (line : Nat) (fault : LineFault)
  /-- A configuration file could not be read. -/
  | unreadable (resource : ResourceId) (cause : ReadFault)
  /-- No type has the name of the provider. -/
  | providerNotFound (name : String)
  /-- The type does not implement the contract of the capability. -/
  | providerNotAssignable (name : String)
  /-- The factory of the provider failed. -/
  | instantiationFailed (name : String) (cause : String)
  /-- Providers cannot be changed in this way. -/
  | notSupported (operation : String)
  /-- The authority of the discovery did not carry the step out. -/
  | privilegeDenied (reason : String)
  deriving DecidableEq

namespace DiscoveryFault

/-- The text that reports the fault, without the capability it arose for. -/
def message : DiscoveryFault → String
  | .scope cause => "Error locating configuration files: " ++ cause.message
  | .malformed resource line fault =>
    resource.text ++ ":" ++ toString line ++ ": " ++ fault.message
  | .unreadable resource cause =>
    "Error reading configuration file " ++ resource.text ++ ": " ++ cause.message
  | .providerNotFound name => "Provider " ++ name ++ " not found"
  | .providerNotAssignable name => "Provider " ++ name ++ " not a subtype"
  | .instantiationFailed name _ => "Provider " ++ name ++ " could not be instantiated"
  | .notSupported operation => operation ++ " is not supported"
  | .privilegeDenied reason => "privileged action refused: " ++ reason

/-- The text of the failure behind the fault, if there is one. -/
def source : DiscoveryFault → Option String
  | .scope cause => some cause.message
  | .unreadable _ cause => some cause.message
  | .instantiationFailed _ cause => some cause
  | _ => none

end DiscoveryFault

/-- A **discovery error**: what went wrong in the discovery of a capability's providers. -/
structure DiscoveryError where
  /-- The capability that was being discovered. -/
  capability : CapabilityId
  /-- What went wrong. -/
  fault : DiscoveryFault
  deriving DecidableEq

namespace DiscoveryError

/-- The text that reports the error. It starts with the capability, whatever the fault. -/
def message (e : DiscoveryError) : String := e.capability.text ++ ": " ++ e.fault.message

/-- The text of the failure behind the error, if there is one. -/
def source (e : DiscoveryError) : Option String := e.fault.source

end DiscoveryError

end ProviderDiscovery
