import LanguageClient.Client.Basic
import LanguageClient.Client.Documents
import LanguageClient.Client.Error
import LanguageClient.Client.Incoming
import LanguageClient.Client.Lifecycle
import LanguageClient.Client.Requests
import LanguageClient.CommandLine.Arguments
import LanguageClient.CommandLine.Check
import LanguageClient.CommandLine.Config
import LanguageClient.CommandLine.Machine
import LanguageClient.CommandLine.Probe
import LanguageClient.CommandLine.Run
import LanguageClient.CommandLine.Shape
import LanguageClient.Covering
import LanguageClient.Document.Basic
import LanguageClient.Document.Edits
import LanguageClient.Document.Error
import LanguageClient.Document.Lines
import LanguageClient.Double
import LanguageClient.Duration
import LanguageClient.Feature.Check
import LanguageClient.Feature.Error
import LanguageClient.Feature.Grant
import LanguageClient.Feature.Registry
import LanguageClient.Feature.Request
import LanguageClient.Feature.Schema
import LanguageClient.FileTree
import LanguageClient.Glob.Matching
import LanguageClient.Glob.Nesting
import LanguageClient.Glob.Pattern
import LanguageClient.Json.Basic
import LanguageClient.Json.Parser
import LanguageClient.Json.Printer
import LanguageClient.Json.Record
import LanguageClient.LanguageId
import LanguageClient.Main
import LanguageClient.Path
import LanguageClient.Proofs.Addresses
import LanguageClient.Proofs.Client.Answering
import LanguageClient.Proofs.Client.Correlation
import LanguageClient.Proofs.Client.Exchanges
import LanguageClient.Proofs.Client.Handshaking
import LanguageClient.Proofs.Client.Latecomers
import LanguageClient.Proofs.Client.Negotiating
import LanguageClient.Proofs.Client.Outstanding
import LanguageClient.Proofs.Client.Registering
import LanguageClient.Proofs.Client.Reporting
import LanguageClient.Proofs.Client.SyncForm
import LanguageClient.Proofs.Document.Acceptance
import LanguageClient.Proofs.Document.Changes
import LanguageClient.Proofs.Document.LineEnds
import LanguageClient.Proofs.Document.LineTable
import LanguageClient.Proofs.Document.Positions
import LanguageClient.Proofs.Document.Queueing
import LanguageClient.Proofs.Document.Reading
import LanguageClient.Proofs.Document.Replaying
import LanguageClient.Proofs.Feature.Accounting
import LanguageClient.Proofs.Feature.Calls
import LanguageClient.Proofs.Feature.Coverage
import LanguageClient.Proofs.Feature.Lingering
import LanguageClient.Proofs.Feature.Meeting
import LanguageClient.Proofs.Feature.Origins
import LanguageClient.Proofs.Feature.Static
import LanguageClient.Proofs.Feature.Upkeep
import LanguageClient.Proofs.Feature.Waiting
import LanguageClient.Proofs.Feature.Withdrawal
import LanguageClient.Proofs.Fields
import LanguageClient.Proofs.Json.Printing
import LanguageClient.Proofs.Protocol.Framing
import LanguageClient.Proofs.Protocol.Messages
import LanguageClient.Proofs.Protocol.Normalizing
import LanguageClient.Proofs.Protocol.Wire
import LanguageClient.Proofs.Protocol.WireTypes
import LanguageClient.Proofs.Runs
import LanguageClient.Proofs.Text.Reading
import LanguageClient.Proofs.Toml.Documents
import LanguageClient.Proofs.Toml.Names
import LanguageClient.Proofs.Toml.Overlaying
import LanguageClient.Proofs.Unescaping
import LanguageClient.Proofs.Vocabulary.Sharing
import LanguageClient.Proofs.Workspace.Addressing
import LanguageClient.Proofs.Workspace.Continuing
import LanguageClient.Proofs.Workspace.Desk
import LanguageClient.Proofs.Workspace.Drifting
import LanguageClient.Proofs.Workspace.Editing
import LanguageClient.Proofs.Workspace.Emptying
import LanguageClient.Proofs.Workspace.Events
import LanguageClient.Proofs.Workspace.Gathering
import LanguageClient.Proofs.Workspace.Growing
import LanguageClient.Proofs.Workspace.Handling
import LanguageClient.Proofs.Workspace.Holds
import LanguageClient.Proofs.Workspace.Keeping
import LanguageClient.Proofs.Workspace.Ledger
import LanguageClient.Proofs.Workspace.LineTables
import LanguageClient.Proofs.Workspace.Listing
import LanguageClient.Proofs.Workspace.Lookup
import LanguageClient.Proofs.Workspace.Marking
import LanguageClient.Proofs.Workspace.Mirror
import LanguageClient.Proofs.Workspace.Offering
import LanguageClient.Proofs.Workspace.Openness
import LanguageClient.Proofs.Workspace.Outliving
import LanguageClient.Proofs.Workspace.Paths
import LanguageClient.Proofs.Workspace.Pinning
import LanguageClient.Proofs.Workspace.Refusing
import LanguageClient.Proofs.Workspace.Shift
import LanguageClient.Proofs.Workspace.Soundness
import LanguageClient.Proofs.Workspace.Stages
import LanguageClient.Proofs.Workspace.Staleness
import LanguageClient.Proofs.Workspace.Telling
import LanguageClient.Proofs.Workspace.Tidy
import LanguageClient.Protocol.Capabilities
import LanguageClient.Protocol.Catalogue
import LanguageClient.Protocol.Filter
import LanguageClient.Protocol.Frame
import LanguageClient.Protocol.Handshake
import LanguageClient.Protocol.Message
import LanguageClient.Protocol.Notice
import LanguageClient.Protocol.Options
import LanguageClient.Protocol.Position
import LanguageClient.Protocol.Registration
import LanguageClient.Settings.Basic
import LanguageClient.Settings.Error
import LanguageClient.Settings.Store
import LanguageClient.Simulation.Basic
import LanguageClient.Simulation.Progress
import LanguageClient.Simulation.Run
import LanguageClient.Simulation.Server
import LanguageClient.Text.Blank
import LanguageClient.Text.Numeral
import LanguageClient.Text.Quoted
import LanguageClient.Text.Unprintable
import LanguageClient.Text.Utf8
import LanguageClient.Timeouts
import LanguageClient.Toml.Basic
import LanguageClient.Toml.Draft
import LanguageClient.Toml.Moment
import LanguageClient.Toml.Overlay
import LanguageClient.Toml.Parser
import LanguageClient.Toml.Quoted
import LanguageClient.Toml.Scalar
import LanguageClient.Uri
import LanguageClient.Vocabulary.Basic
import LanguageClient.Vocabulary.Interning
import LanguageClient.Vocabulary.Kinds
import LanguageClient.Workspace.Documents
import LanguageClient.Workspace.Locations
import LanguageClient.Workspace.Saving
import LanguageClient.Workspace.Session
