import IntentContract.Text.Blank
import IntentContract.Text.Hex
import IntentContract.Text.Digits
import IntentContract.Text.CharRange
import IntentContract.Text.Printable
import IntentContract.Text.ExtendingMark
import IntentContract.Number.Double
import IntentContract.Number.Decimal
import IntentContract.Keyed
import IntentContract.Json.Basic
import IntentContract.Json.Text
import IntentContract.Json.Number
import IntentContract.Json.Reader
import IntentContract.Json.Record
import IntentContract.Token.Position
import IntentContract.Token.Basic
import IntentContract.Token.Scan
import IntentContract.Text.Join
import IntentContract.NameSet
import IntentContract.TypeDescriptor.Basic
import IntentContract.TypeDescriptor.Wire
import IntentContract.Definition.Basic
import IntentContract.Definition.Grammar
import IntentContract.Definition.Wire
import IntentContract.Definition.Extensions
import IntentContract.Hash.Sha256
import IntentContract.Failure
import IntentContract.Contract.Basic
import IntentContract.Contract.Canonical
import IntentContract.Generated.Code
import IntentContract.Generated.Names
import IntentContract.Generated.Client
import IntentContract.Generated.Handlers
import IntentContract.LinkedData.PrefixTable
import IntentContract.LinkedData.Graph
import IntentContract.Artifacts
import IntentContract.Text.Search
import IntentContract.Time.Calendar
import IntentContract.Time.Timestamp
import IntentContract.Conformance.Finding
import IntentContract.Conformance.DefinitionRules
import IntentContract.Conformance.DocumentRules
import IntentContract.Text.Quoted
import IntentContract.Agent.Message
import IntentContract.Agent.Basic
import IntentContract.Scenario.Basic
import IntentContract.Scenario.Run
import IntentContract.Text.Markup
import IntentContract.TestReport
import IntentContract.Toml.Moment
import IntentContract.Toml.Value
import IntentContract.Toml.Table
import IntentContract.Toml.Scalar
import IntentContract.Toml.Quoted
import IntentContract.Toml.Reader
import IntentContract.Time.Clock
import IntentContract.Files.Path
import IntentContract.Files.Host
import IntentContract.Files.Tree
import IntentContract.Config
import IntentContract.CommandLine.Arguments
import IntentContract.CommandLine.Complaint
import IntentContract.CommandLine.Compile
import IntentContract.CommandLine.Check
import IntentContract.CommandLine.Test
import IntentContract.CommandLine.Run
import IntentContract.Main
import IntentContract.Proofs.Token.Spelling
import IntentContract.Proofs.Token.Spacing
import IntentContract.Proofs.Token.Tiling
import IntentContract.Proofs.Token.Onward
import IntentContract.Proofs.Grammar.Reading
import IntentContract.Proofs.Grammar.Locality
import IntentContract.Proofs.Grammar.Document
import IntentContract.Proofs.Layout
import IntentContract.Proofs.Definition.WellFormed
import IntentContract.Proofs.Grammar.Image
import IntentContract.Proofs.Definition.Printer
import IntentContract.Proofs.Grammar.RoundTrip
import IntentContract.Proofs.Text.Row
import IntentContract.Proofs.Json.Literal
import IntentContract.Proofs.LinkedData.Alignment
import IntentContract.Proofs.Files.Tree
import IntentContract.Proofs.Files.World
import IntentContract.Proofs.CommandLine.Steps
import IntentContract.Proofs.Scenario.DelegationGate
import IntentContract.Proofs.Json.Compact
import IntentContract.Proofs.TypeDescriptor.Items
import IntentContract.Proofs.Contract.Canonical
import IntentContract.Proofs.Contract.WellFormed
import IntentContract.Proofs.Contract.Uses
import IntentContract.Proofs.Generated.Lines
import IntentContract.Proofs.Generated.Registry
import IntentContract.Proofs.Generated.Bindings
import IntentContract.Proofs.Contract.Surface
import IntentContract.Proofs.LinkedData.Recovery
import IntentContract.Proofs.Generated.Traceability
import IntentContract.Proofs.Keyed
import IntentContract.Proofs.Agent.Dispatch
import IntentContract.Proofs.Agent.Arguments
import IntentContract.Proofs.Scenario.BigStep
import IntentContract.Proofs.Scenario.Record
import IntentContract.Proofs.Definition.Wire
import IntentContract.Proofs.TypeDescriptor.Readable
import IntentContract.Proofs.Conformance.Conforming
import IntentContract.Proofs.CommandLine.Compile
import IntentContract.Proofs.CommandLine.Test
import IntentContract.Proofs.Contract.Nullability
import IntentContract.Proofs.LinkedData.Faithful
import IntentContract.Proofs.Generated.Declarations
import IntentContract.Proofs.Generated.UsedTypes
import IntentContract.Proofs.Generated.Scopes
import IntentContract.Proofs.Conformance.Reported
import IntentContract.Proofs.Conformance.Definitions
import IntentContract.Proofs.Conformance.Documents
import IntentContract.Proofs.Contract.Redeclared
import IntentContract.Proofs.Conformance.Overwrites
import IntentContract.Proofs.LinkedData.Context
import IntentContract.Proofs.Grammar.Prompt
import IntentContract.Proofs.Grammar.Prompt.Types
import IntentContract.Proofs.Grammar.Prompt.Attributes
import IntentContract.Proofs.Grammar.Prompt.Definitions
import IntentContract.Proofs.Grammar.Located
import IntentContract.Proofs.Grammar.Blame
import IntentContract.Proofs.Grammar.Indifference
import IntentContract.Proofs.Grammar.Indifference.Definitions
import IntentContract.Proofs.Grammar.Quotation
import IntentContract.Proofs.Generated.SingleSource
import IntentContract.Proofs.Scenario.ExecutionRecord
import IntentContract.Proofs.Text.Markup
import IntentContract.Proofs.TestReport
import IntentContract.Proofs.Generated.QuotedValues
import IntentContract.Proofs.Text.Brackets
import IntentContract.Proofs.Generated.Nesting
import IntentContract.Proofs.Time.FixedWidth
import IntentContract.Proofs.LinkedData.Expansion
import IntentContract.Proofs.Generated.DashedNames
import IntentContract.Proofs.Grammar.IntegerLiterals
