import DocumentClient.Bytes.Hex
import DocumentClient.Bytes.Numeral
import DocumentClient.Calendar
import DocumentClient.Document.Basic
import DocumentClient.Document.Equality
import DocumentClient.Document.Kind
import DocumentClient.Document.ObjectId
import DocumentClient.Document.Value
import DocumentClient.Failure
import DocumentClient.Geo.Coordinates
import DocumentClient.Geo.Crs
import DocumentClient.Json.Relaxed
import DocumentClient.Json.Text
import DocumentClient.Message.Body
import DocumentClient.Message.Header
import DocumentClient.Message.Reply
import DocumentClient.Message.Request
import DocumentClient.Number.Binary64
import DocumentClient.Number.Conversion
import DocumentClient.Number.Decimal
import DocumentClient.Number.Decimal128
import DocumentClient.Number.Shortest
import DocumentClient.Query.Namespace
import DocumentClient.Query.Plan
import DocumentClient.Query.Server
import DocumentClient.Query.Sort
import DocumentClient.Session.Cancellation
import DocumentClient.Session.Channel
import DocumentClient.Session.Cursor
import DocumentClient.Session.Execute
import DocumentClient.Session.Notice
import DocumentClient.Settings.Basic
import DocumentClient.Settings.Filter
import DocumentClient.Settings.Text
import DocumentClient.Text.Base64
import DocumentClient.Text.Blank
import DocumentClient.Text.Quoted
import DocumentClient.Text.Shown
import DocumentClient.Text.Utf8
import DocumentClient.Toml.Document
import DocumentClient.Toml.Quoted
import DocumentClient.Toml.Scalar
import DocumentClient.Toml.Scan
import DocumentClient.Toml.Text
import DocumentClient.Toml.Tree
import DocumentClient.Toml.Value
import DocumentClient.Typed.Coding
import DocumentClient.Typed.Record
import DocumentClient.Typed.Registry
import DocumentClient.Typed.Shape
import DocumentClient.Typed.Unsigned
import DocumentClient.Wire.Encoding
import DocumentClient.Wire.Fault
import DocumentClient.Wire.Phase
import DocumentClient.Wire.Reader.Basic
import DocumentClient.Wire.Reader.Value
import DocumentClient.Wire.Writer.Basic
import DocumentClient.Wire.Writer.Value
import DocumentClient.Wire.Writer.Buffer
import DocumentClient.Proofs.Outcome
import DocumentClient.Proofs.Document.Map
import DocumentClient.Proofs.Query.Wrapping
import DocumentClient.Proofs.Wire.Grammar
import DocumentClient.Proofs.Wire.Parts
import DocumentClient.Proofs.Wire.Reading
import DocumentClient.Proofs.Wire.Scalars
import DocumentClient.Proofs.Wire.Containers
import DocumentClient.Proofs.Wire.Access
import DocumentClient.Proofs.Wire.Decoding
import DocumentClient.Proofs.Wire.Bounds
import DocumentClient.Proofs.Wire.Confinement
import DocumentClient.Proofs.Wire.Lookup
import DocumentClient.Proofs.Wire.Elements
import DocumentClient.Proofs.Wire.Writing
import DocumentClient.Proofs.Wire.RoundTrip
import DocumentClient.Proofs.Wire.Layout
import DocumentClient.Proofs.Wire.Streaming
import DocumentClient.Proofs.Wire.Framing
import DocumentClient.Proofs.Wire.Buffering
import DocumentClient.Proofs.Wire.Nesting
import DocumentClient.Proofs.Wire.Fields
import DocumentClient.Proofs.Wire.Acceptance
import DocumentClient.Proofs.Wire.Canonical
import DocumentClient.Proofs.Wire.Recovery
import DocumentClient.Proofs.Wire.Skipping
import DocumentClient.Proofs.Wire.Subtypes
import DocumentClient.Proofs.Wire.Consuming
import DocumentClient.Proofs.Wire.Malformation
import DocumentClient.Proofs.Wire.Misuse
import DocumentClient.Proofs.Message.Failures
import DocumentClient.Proofs.Message.Opcodes
import DocumentClient.Proofs.Message.Pieces
import DocumentClient.Proofs.Message.Replies
import DocumentClient.Proofs.Message.Requests
import DocumentClient.Proofs.Message.Appending
import DocumentClient.Proofs.Message.Guards
import DocumentClient.Proofs.Session.Exchange
import DocumentClient.Proofs.Session.Steps
import DocumentClient.Proofs.Session.Opening
import DocumentClient.Proofs.Session.Rounds
import DocumentClient.Proofs.Session.Lifecycle
import DocumentClient.Proofs.Session.Output
import DocumentClient.Proofs.Session.Provenance
import DocumentClient.Proofs.Session.Sizing
import DocumentClient.Proofs.Session.Cancelling
import DocumentClient.Proofs.Typed.Registry
import DocumentClient.Proofs.Typed.Unsigned
import DocumentClient.Proofs.Typed.Geo
import DocumentClient.Proofs.Typed.RoundTrip
import DocumentClient.Proofs.Typed.CrsForm
import DocumentClient.Proofs.Typed.Dispatch
import DocumentClient.Proofs.Typed.Lookahead
import DocumentClient.Proofs.Typed.OneValue
import DocumentClient.Proofs.Typed.Faults
import DocumentClient.Proofs.Typed.Lookups
import DocumentClient.Proofs.Typed.Caching
import DocumentClient.Proofs.Number.Doubles
import DocumentClient.Proofs.Document.Building
import DocumentClient.Proofs.Document.Equality
