import ContractBuild.Text
import ContractBuild.Text.LetterCase
import ContractBuild.Text.Printable
import ContractBuild.Text.Numeral
import ContractBuild.Digest
import ContractBuild.Json
import ContractBuild.Json.Reader
import ContractBuild.Json.Decode
import ContractBuild.Interface
import ContractBuild.Interface.Codec
import ContractBuild.Binding.AbiType
import ContractBuild.Binding.Plan
import ContractBuild.Binding.Name
import ContractBuild.Text.Enclosed
import ContractBuild.Text.Lossy
import ContractBuild.Binding.RustModule
import ContractBuild.Binding.TypeScript
import ContractBuild.Binding.Dialect
import ContractBuild.Interface.Flatten
import ContractBuild.Path
import ContractBuild.Source
import ContractBuild.Artifact
import ContractBuild.Yaml
import ContractBuild.Yaml.Token
import ContractBuild.Yaml.Cursor
import ContractBuild.Yaml.FlowScalar
import ContractBuild.Yaml.BlockScalar
import ContractBuild.Yaml.Tag
import ContractBuild.Yaml.Scanner
import ContractBuild.Yaml.Reader
import ContractBuild.Yaml.Decode
import ContractBuild.Settings
import ContractBuild.Duration
import ContractBuild.FileTree
import ContractBuild.FileTree.Action
import ContractBuild.Project.Error
import ContractBuild.Build.Error
import ContractBuild.Project
import ContractBuild.Project.Sources
import ContractBuild.Build.Output
import ContractBuild.Glob
import ContractBuild.Interface.Export
import ContractBuild.Binding.Output
import ContractBuild.Routine
import ContractBuild.Cancellation
import ContractBuild.Workspace
import ContractBuild.Compiler.Invocation
import ContractBuild.Compiler.Version
import ContractBuild.Compiler.Diagnostics
import ContractBuild.Compiler.Adapter
import ContractBuild.Compiler.Solc
import ContractBuild.Compiler.Vyper
import ContractBuild.Compiler.Configured
import ContractBuild.Store
import ContractBuild.Store.Request
import ContractBuild.Store.Progress
import ContractBuild.Store.Pool
import ContractBuild.Build.Job
import ContractBuild.Build.Stamp
import ContractBuild.Build.Report
import ContractBuild.Build.Pipeline
import ContractBuild.CommandLine.Arguments
import ContractBuild.CommandLine.Console
import ContractBuild.CommandLine.Commands
import ContractBuild.CommandLine.Program
import ContractBuild.FileTree.Change
import ContractBuild.Main
import ContractBuild.Proofs.Action
import ContractBuild.Proofs.FileTree.Nodes
import ContractBuild.Proofs.FileTree.Places
import ContractBuild.Proofs.FileTree.Parents
import ContractBuild.Proofs.FileTree.Locations
import ContractBuild.Proofs.FileTree.Confined
import ContractBuild.Proofs.FileTree.Operations
import ContractBuild.Proofs.Build.Outputs
import ContractBuild.Proofs.Build.Purge
import ContractBuild.Proofs.Store.Entries
import ContractBuild.Proofs.Store.Transitions
import ContractBuild.Proofs.Store.Interleaving
import ContractBuild.Proofs.Store.Answers
import ContractBuild.Proofs.Store.SharedCompile
import ContractBuild.Proofs.Build.Bindings
import ContractBuild.Proofs.Build.FastPath
import ContractBuild.Proofs.Store.Distinct
import ContractBuild.Proofs.Fingerprint
import ContractBuild.Proofs.Interface.Groups
import ContractBuild.Proofs.Interface.Merge
import ContractBuild.Proofs.Interface.Signatures
import ContractBuild.Proofs.Interface.Staging
import ContractBuild.Store.Withdrawal
import ContractBuild.Store.Steps
import ContractBuild.Proofs.Store.Flights
import ContractBuild.Proofs.Store.Steps
import ContractBuild.Proofs.Store.Threads
import ContractBuild.Proofs.Store.SingleFlight
import ContractBuild.Proofs.Build.Inputs
import ContractBuild.Proofs.Build.Passage
import ContractBuild.Proofs.Build.Completion
import ContractBuild.Proofs.Build.Holdings
import ContractBuild.Proofs.Build.Idempotence
import ContractBuild.Proofs.Build.Externals
import ContractBuild.Proofs.Build.Failures
import ContractBuild.Proofs.Build.History
import ContractBuild.Proofs.Build.Incremental
import ContractBuild.Proofs.Build.Rebuild
import ContractBuild.Proofs.Build.Selection
import ContractBuild.Proofs.Interface.RoundTrip
import ContractBuild.Proofs.Binding.Overloads
import ContractBuild.Proofs.Binding.TypeGrammar
import ContractBuild.Proofs.Binding.CanonicalTypes
import ContractBuild.Proofs.Binding.Keys
import ContractBuild.Proofs.Binding.Refusals
import ContractBuild.Proofs.Build.Containment
import ContractBuild.Proofs.Build.OwnOutput
import ContractBuild.Proofs.Build.NameClashes
import ContractBuild.Proofs.Store.Opening
import ContractBuild.Proofs.Store.Stock
import ContractBuild.Proofs.Store.Agreement
import ContractBuild.Proofs.Store.Alone
import ContractBuild.Proofs.Store.Ledger
import ContractBuild.Proofs.Build.Isolation
import ContractBuild.Proofs.Build.Expansion
import ContractBuild.Proofs.Binding.StemNames
import ContractBuild.Proofs.Binding.Declarations
import ContractBuild.Proofs.Binding.ModuleItems
import ContractBuild.Proofs.Build.IndexFile
import ContractBuild.Proofs.Build.Loading
import ContractBuild.Proofs.Binding.ParameterNames
import ContractBuild.Proofs.Binding.FieldNames
import ContractBuild.Proofs.FileTree.Ways
import ContractBuild.Proofs.Build.DescriptorFiles
import ContractBuild.Proofs.Build.Remains
import ContractBuild.Proofs.Compiler.Flags
import ContractBuild.Proofs.Compiler.Readings
import ContractBuild.Proofs.Build.Forecast
import ContractBuild.Proofs.Build.Discovery
import ContractBuild.Proofs.CommandLine.Cleaning
import ContractBuild.Proofs.CommandLine.Reopening
import ContractBuild.Proofs.Binding.FreshNames
import ContractBuild.Proofs.Binding.SignatureTypes
import ContractBuild.Proofs.Build.DigestBytes
import ContractBuild.Proofs.Binding.NamePlaces
