import ProviderDiscovery.Discovery
import ProviderDiscovery.Main
import ProviderDiscovery.Proofs.Candidates.Mentions
import ProviderDiscovery.Proofs.Candidates.Enumeration
import ProviderDiscovery.Proofs.Candidates.Sources
import ProviderDiscovery.Proofs.Candidates.Waiting
import ProviderDiscovery.Proofs.Candidates.Peeking
import ProviderDiscovery.Proofs.Candidates.Pending
import ProviderDiscovery.Proofs.Candidates.Openings
import ProviderDiscovery.Proofs.Authority
import ProviderDiscovery.Proofs.Registry
import ProviderDiscovery.Proofs.Instances
import ProviderDiscovery.Proofs.Acceptance
import ProviderDiscovery.Proofs.Acceptance.FirstInstance
import ProviderDiscovery.Proofs.Discovery.Advance
import ProviderDiscovery.Proofs.Discovery.Session
import ProviderDiscovery.Proofs.Discovery.Replay
import ProviderDiscovery.Proofs.Discovery.Finds
import ProviderDiscovery.Proofs.Discovery.Refinement
import ProviderDiscovery.Proofs.Name
import ProviderDiscovery.Proofs.Text.Utf8
import ProviderDiscovery.Proofs.Text.Trim
import ProviderDiscovery.Proofs.Text.Decimal
import ProviderDiscovery.Proofs.Configuration.Line
import ProviderDiscovery.Proofs.Configuration.Names
import ProviderDiscovery.Proofs.Answers
import ProviderDiscovery.Proofs.Scope.Steady
import ProviderDiscovery.Proofs.Report.Providers
import ProviderDiscovery.Proofs.Report.Forecast
import ProviderDiscovery.Proofs.Report.Drained
import ProviderDiscovery.Proofs.Report.Survey
import ProviderDiscovery.Proofs.Report.Check
import ProviderDiscovery.Proofs.Report.Summary
import ProviderDiscovery.Proofs.CommandLine.Documented
import ProviderDiscovery.Proofs.CommandLine.Reader
import ProviderDiscovery.Proofs.CommandLine.Written
import ProviderDiscovery.Proofs.Files.Path
import ProviderDiscovery.Proofs.Files.Tree
import ProviderDiscovery.Proofs.Scope.Services
import ProviderDiscovery.Proofs.Scope.Memory
import ProviderDiscovery.Proofs.Scope.Delegation
import ProviderDiscovery.Proofs.Report.Repetition
import ProviderDiscovery.Proofs.Files.Contents
import ProviderDiscovery.Proofs.Scope.Exploded
import ProviderDiscovery.Proofs.Discovery.InStep
import ProviderDiscovery.Proofs.Discovery.Permissive
import ProviderDiscovery.Proofs.Discovery.Told
import ProviderDiscovery.Proofs.Blind
import ProviderDiscovery.Proofs.Discovery.Loss
import ProviderDiscovery.Proofs.Discovery.Refusal
import ProviderDiscovery.Proofs.Discovery.Requests
import ProviderDiscovery.Proofs.Discovery.Exhaustion
import ProviderDiscovery.Proofs.Level
import ProviderDiscovery.Proofs.Discovery.Twins
import ProviderDiscovery.Proofs.Discovery.Encounters
import ProviderDiscovery.Proofs.Scope.Root
import ProviderDiscovery.Proofs.Discovery.Reload
import ProviderDiscovery.Proofs.Discovery.Unasked
import ProviderDiscovery.Proofs.Discovery.Termination
import ProviderDiscovery.Proofs.Discovery.Location
import ProviderDiscovery.Proofs.Discovery.Installed
import ProviderDiscovery.Proofs.Discovery.Blame
import ProviderDiscovery.Proofs.Discovery.Account
import ProviderDiscovery.Proofs.Discovery.Openings
import ProviderDiscovery.Proofs.Discovery.NewNames
import ProviderDiscovery.Proofs.Scope.Confined
import ProviderDiscovery.Proofs.Report.Services
import ProviderDiscovery.Proofs.Confinement
import ProviderDiscovery.Proofs.Discovery.Abreast
import ProviderDiscovery.Proofs.Discovery.Numbering
import ProviderDiscovery.Proofs.Discovery.Company
import ProviderDiscovery.Proofs.Configuration.Endings
import ProviderDiscovery.Proofs.Files.Extension
import ProviderDiscovery.Proofs.Files.Agreement
import ProviderDiscovery.Proofs.Settings.ClassPath
import ProviderDiscovery.Proofs.Settings.Strays
