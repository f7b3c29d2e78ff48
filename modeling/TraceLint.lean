import TraceLint.Analysis.Action
import TraceLint.Analysis.Basic
import TraceLint.Analysis.Inspection
import TraceLint.Analysis.Validate
import TraceLint.Bytecode.Basic
import TraceLint.Bytecode.Inspector
import TraceLint.Bytecode.Opcode
import TraceLint.CommandLine.Arguments
import TraceLint.CommandLine.Command
import TraceLint.CommandLine.Flag
import TraceLint.CommandLine.Help
import TraceLint.Descriptor
import TraceLint.Expectation.Basic
import TraceLint.Expectation.Suite
import TraceLint.FileSystem
import TraceLint.Finding
import TraceLint.Hierarchy
import TraceLint.Json.Basic
import TraceLint.Json.Parser
import TraceLint.Json.Printer
import TraceLint.Json.Token
import TraceLint.Key
import TraceLint.Load
import TraceLint.Logging.Analysis
import TraceLint.Logging.Arguments
import TraceLint.Logging.Check
import TraceLint.Logging.Placeholder
import TraceLint.Main
import TraceLint.MessagePack.Basic
import TraceLint.MessagePack.Reader
import TraceLint.MessagePack.Writer
import TraceLint.Moment.Basic
import TraceLint.Moment.Parser
import TraceLint.Number.Binary
import TraceLint.Number.Integer
import TraceLint.Number.Literal
import TraceLint.Number.Power
import TraceLint.Number.Shortest
import TraceLint.Number.Style
import TraceLint.Path
import TraceLint.Pattern.Basic
import TraceLint.Pattern.Charset
import TraceLint.Pattern.Parser
import TraceLint.Proofs.Analysis.Requirements
import TraceLint.Proofs.Bytecode.Traversal
import TraceLint.Proofs.Descriptor.Grammar
import TraceLint.Proofs.Hierarchy.Reachability
import TraceLint.Proofs.Logging.Arguments
import TraceLint.Proofs.Logging.Check
import TraceLint.Proofs.Logging.Placeholder
import TraceLint.Proofs.Logging.Survey
import TraceLint.Report.Basic
import TraceLint.Report.Context
import TraceLint.Report.Plain
import TraceLint.Report.Tree
import TraceLint.Session
import TraceLint.Stack.Basic
import TraceLint.Text.Base64
import TraceLint.Text.Basic
import TraceLint.Text.Quoted
import TraceLint.Text.Utf8
import TraceLint.Trace.Basic
import TraceLint.Trace.Build
import TraceLint.Trace.Codec
import TraceLint.Trace.Draft
import TraceLint.Trace.Format
import TraceLint.Trace.JsonCodec
import TraceLint.Trace.MessagePackCodec
import TraceLint.Trace.Schema
import TraceLint.Trace.YamlCodec
import TraceLint.Unicode.Digit
import TraceLint.Unicode.Fold
import TraceLint.Unicode.Letter
import TraceLint.Unicode.Printable
import TraceLint.Unicode.Space
import TraceLint.Value
import TraceLint.Yaml.Expansion
import TraceLint.Yaml.Mapping
import TraceLint.Yaml.Node
import TraceLint.Yaml.Order
import TraceLint.Yaml.Printer
import TraceLint.Yaml.Resolve
import TraceLint.Yaml.Scalar
import TraceLint.Yaml.Source
import TraceLint.Yaml.Token
import TraceLint.Proofs.Analysis.Evaluation
import TraceLint.Proofs.Analysis.Schedule
import TraceLint.Proofs.Analysis.Interleaving
import TraceLint.Proofs.Finding.Order
import TraceLint.Proofs.Hierarchy.Program
import TraceLint.Proofs.Load.Program
import TraceLint.Proofs.Report.Context
import TraceLint.Proofs.Logging.Conclusion
import TraceLint.Proofs.Logging.Findings
import TraceLint.Proofs.Report.Plain
import TraceLint.Proofs.Report.Tree
import TraceLint.Proofs.Session.Logging
import TraceLint.Proofs.Analysis.Failure
import TraceLint.Proofs.Analysis.Inputs
import TraceLint.Proofs.Finding.Arrival
import TraceLint.Proofs.Report.Agreement
import TraceLint.Proofs.Logging.Advice
import TraceLint.Proofs.Logging.Locality
import TraceLint.Proofs.Logging.Expression
import TraceLint.Proofs.Analysis.Search
import TraceLint.Proofs.Analysis.Validity
import TraceLint.Proofs.Bytecode.Visits
import TraceLint.Proofs.Hierarchy.Records
import TraceLint.Proofs.Analysis.Construction
import TraceLint.Proofs.Finding.Positions
import TraceLint.Proofs.Trace.WellFormed
import TraceLint.Proofs.Load.Decoders
import TraceLint.Proofs.Logging.Counts
import TraceLint.Proofs.Hierarchy.Extension
import TraceLint.Proofs.Logging.Outcome
import TraceLint.Proofs.Expectation.Pairing
import TraceLint.Proofs.Expectation.Order
import TraceLint.Proofs.Logging.Format
import TraceLint.Proofs.Report.Window
import TraceLint.Proofs.MessagePack.Heads
import TraceLint.Proofs.Trace.Schema
import TraceLint.Proofs.Logging.Constants
import TraceLint.Proofs.Session.RoundTrip
import TraceLint.Proofs.Json.Documents
import TraceLint.Proofs.Trace.Json
import TraceLint.Proofs.Loop
import TraceLint.Proofs.Report.Loop
import TraceLint.Proofs.Bytecode.Loops
import TraceLint.Proofs.Expectation.Table
