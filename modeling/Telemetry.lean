import Telemetry.Files.Tree
import Telemetry.Main
import Telemetry.Proofs.Decimal.Magnitude
import Telemetry.Proofs.Extract.Isolation
import Telemetry.Proofs.Extract.Plain
import Telemetry.Proofs.Extract.Validity
import Telemetry.Proofs.Json.Documents
import Telemetry.Proofs.Json.Integers
import Telemetry.Proofs.Json.Reading
import Telemetry.Proofs.Json.Spelling
import Telemetry.Proofs.Json.Strings
import Telemetry.Proofs.Payload.Place
import Telemetry.Proofs.Text.Utf8
import Telemetry.Proofs.Payload.Numbers
import Telemetry.Proofs.Extract.Lookups
import Telemetry.Proofs.Json.Writing
import Telemetry.Proofs.Json.NumberForms
import Telemetry.Proofs.Payload.Rendering
import Telemetry.Proofs.Json.StringForms
import Telemetry.Proofs.Json.Grammar
import Telemetry.Proofs.Payload.Denotation
import Telemetry.Proofs.Field.Recall
import Telemetry.Proofs.Attribute.Records
import Telemetry.Proofs.Extract.Replay
import Telemetry.Proofs.Extract.History
import Telemetry.Proofs.Extract.Recording
import Telemetry.Proofs.Json.Prefixes
import Telemetry.Proofs.Payload.Truncation
import Telemetry.Proofs.Extract.Loosening
import Telemetry.Proofs.Extract.Adapters
import Telemetry.Proofs.Program.Session
import Telemetry.Proofs.Program.Resolving
import Telemetry.Proofs.Json.Forms
import Telemetry.Proofs.Config.Contents
import Telemetry.Proofs.Program.Layers
import Telemetry.Proofs.Payload.Candidates
import Telemetry.Proofs.Field.Traversal
import Telemetry.Proofs.Payload.Counts
import Telemetry.Proofs.Program.Output
import Telemetry.Proofs.Payload.CountTexts
import Telemetry.Proofs.Payload.Pointers
import Telemetry.Proofs.Field.Pruning
import Telemetry.Proofs.Field.Members
import Telemetry.Proofs.Extract.FieldCounts
import Telemetry.Proofs.Field.Requests
import Telemetry.Proofs.Payload.Conversions
import Telemetry.Proofs.Payload.Texts
import Telemetry.Proofs.Text.Case
import Telemetry.Proofs.Config.ByteSizes
import Telemetry.Proofs.Field.Discovery
import Telemetry.Proofs.Mapping.Registry
import Telemetry.Proofs.Files.Expansion
