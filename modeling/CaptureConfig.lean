import CaptureConfig.Command.Arguments
import CaptureConfig.Command.LogFilter
import CaptureConfig.Command.Run
import CaptureConfig.Command.Sample
import CaptureConfig.Command.Transcript
import CaptureConfig.Data.Keys
import CaptureConfig.Data.Tree
import CaptureConfig.Data.Value
import CaptureConfig.Delivery
import CaptureConfig.Document.Config
import CaptureConfig.Document.Doc
import CaptureConfig.Document.Form
import CaptureConfig.Document.Schema
import CaptureConfig.Event
import CaptureConfig.Failure
import CaptureConfig.Hcl.Blank
import CaptureConfig.Hcl.Body
import CaptureConfig.Hcl.Expr
import CaptureConfig.Hcl.Name
import CaptureConfig.Hcl.Reader
import CaptureConfig.Hcl.Template
import CaptureConfig.Identifier
import CaptureConfig.Json.Atom
import CaptureConfig.Json.Number
import CaptureConfig.Json.Printer
import CaptureConfig.Json.Quoted
import CaptureConfig.Json.Reader
import CaptureConfig.Json.Unquote
import CaptureConfig.Loading
import CaptureConfig.Main
import CaptureConfig.Network
import CaptureConfig.Number.Binary64
import CaptureConfig.Number.Digits
import CaptureConfig.Number.Shortest
import CaptureConfig.Path
import CaptureConfig.Proofs.Account
import CaptureConfig.Proofs.Agreement
import CaptureConfig.Proofs.Allowlist
import CaptureConfig.Proofs.Blank
import CaptureConfig.Proofs.Component
import CaptureConfig.Proofs.Concealment
import CaptureConfig.Proofs.Delivery
import CaptureConfig.Proofs.Document.Config
import CaptureConfig.Proofs.Document.Ending
import CaptureConfig.Proofs.Document.Frame
import CaptureConfig.Proofs.Document.Record
import CaptureConfig.Proofs.Document.Refusal
import CaptureConfig.Proofs.Document.Tree
import CaptureConfig.Proofs.Extension
import CaptureConfig.Proofs.Fidelity
import CaptureConfig.Proofs.Findings
import CaptureConfig.Proofs.Hcl.Blank
import CaptureConfig.Proofs.Hcl.Document
import CaptureConfig.Proofs.Hcl.Notation
import CaptureConfig.Proofs.Hcl.Printed
import CaptureConfig.Proofs.Hcl.Quoted
import CaptureConfig.Proofs.Hcl.Reading
import CaptureConfig.Proofs.Identifier
import CaptureConfig.Proofs.Json.Document
import CaptureConfig.Proofs.Json.Exchange
import CaptureConfig.Proofs.Json.Frame
import CaptureConfig.Proofs.Json.Grammar
import CaptureConfig.Proofs.Json.Notation
import CaptureConfig.Proofs.Json.Number
import CaptureConfig.Proofs.Json.Printed
import CaptureConfig.Proofs.Json.Quoted
import CaptureConfig.Proofs.Json.Record
import CaptureConfig.Proofs.Json.Value
import CaptureConfig.Proofs.Loading
import CaptureConfig.Proofs.Network
import CaptureConfig.Proofs.Network.Text
import CaptureConfig.Proofs.Number.Digits
import CaptureConfig.Proofs.Plan
import CaptureConfig.Proofs.Property.Attributes
import CaptureConfig.Proofs.Property.Block
import CaptureConfig.Proofs.Property.Concord
import CaptureConfig.Proofs.Property.Format
import CaptureConfig.Proofs.Property.Order
import CaptureConfig.Proofs.Property.Place
import CaptureConfig.Proofs.Property.Quantity
import CaptureConfig.Proofs.Property.Reading
import CaptureConfig.Proofs.Property.Repeated
import CaptureConfig.Proofs.Property.Switch
import CaptureConfig.Proofs.Property.Written
import CaptureConfig.Proofs.Rendering
import CaptureConfig.Proofs.Repetition
import CaptureConfig.Proofs.Report
import CaptureConfig.Proofs.Resolution
import CaptureConfig.Proofs.RoundTrip
import CaptureConfig.Proofs.Rules
import CaptureConfig.Proofs.Sample.Reading
import CaptureConfig.Proofs.Sample.Writing
import CaptureConfig.Proofs.Secrecy
import CaptureConfig.Proofs.Selection
import CaptureConfig.Proofs.Stoppage
import CaptureConfig.Proofs.Store.Change
import CaptureConfig.Proofs.Store.Growth
import CaptureConfig.Proofs.Store.Passage
import CaptureConfig.Proofs.Store.Place
import CaptureConfig.Proofs.Store.Readiness
import CaptureConfig.Proofs.Utf8
import CaptureConfig.Proofs.Verdict
import CaptureConfig.Proofs.Warning
import CaptureConfig.Proofs.Yaml.Block
import CaptureConfig.Proofs.Yaml.Brackets
import CaptureConfig.Proofs.Yaml.Chars
import CaptureConfig.Proofs.Yaml.Cursor
import CaptureConfig.Proofs.Yaml.Document
import CaptureConfig.Proofs.Yaml.Fetch
import CaptureConfig.Proofs.Yaml.Gap
import CaptureConfig.Proofs.Yaml.Lines
import CaptureConfig.Proofs.Yaml.Plain
import CaptureConfig.Proofs.Yaml.Quoted
import CaptureConfig.Proofs.Yaml.Spelling
import CaptureConfig.Proofs.Yaml.Stream
import CaptureConfig.Proofs.Yaml.Strict.Document
import CaptureConfig.Proofs.Yaml.Strict.Tokens
import CaptureConfig.Proofs.Yaml.Style
import CaptureConfig.Property.Basic
import CaptureConfig.Property.Description
import CaptureConfig.Property.Format
import CaptureConfig.Property.Parse
import CaptureConfig.Property.Schema
import CaptureConfig.Report
import CaptureConfig.Resolution.Defaults
import CaptureConfig.Resolution.Materials
import CaptureConfig.Resolution.Resolve
import CaptureConfig.Resolution.Rules
import CaptureConfig.Schema.Fault
import CaptureConfig.Schema.Reader
import CaptureConfig.Schema.Scalar
import CaptureConfig.Schema.Uses
import CaptureConfig.Store.FileTree
import CaptureConfig.Store.Node
import CaptureConfig.Store.Refusal
import CaptureConfig.Store.Step
import CaptureConfig.Text.Blank
import CaptureConfig.Text.Quoted
import CaptureConfig.Text.Shown
import CaptureConfig.Text.Stretches
import CaptureConfig.Text.Utf8
import CaptureConfig.Yaml.Alias
import CaptureConfig.Yaml.Atom
import CaptureConfig.Yaml.Chars
import CaptureConfig.Yaml.Cursor
import CaptureConfig.Yaml.Node
import CaptureConfig.Yaml.Printer
import CaptureConfig.Yaml.Scalar
import CaptureConfig.Yaml.Style
import CaptureConfig.Yaml.Token
import CaptureConfig.Yaml.Token.Flowing
import CaptureConfig.Yaml.Token.Lines
import CaptureConfig.Yaml.Token.Stream
import CaptureConfig.Yaml.Token.Tag
