import RestGateway.Address
import RestGateway.Bindings
import RestGateway.Bytes
import RestGateway.Deadline
import RestGateway.Deadline.Words
import RestGateway.Dispatch
import RestGateway.Failure
import RestGateway.Gateway
import RestGateway.Grpc.Answer
import RestGateway.Grpc.Client
import RestGateway.Grpc.Frame
import RestGateway.Grpc.Server
import RestGateway.Header
import RestGateway.Json.Fault
import RestGateway.Json.Number
import RestGateway.Json.Record
import RestGateway.Json.Skip
import RestGateway.Json.Text
import RestGateway.Json.Value
import RestGateway.Message.Catalog
import RestGateway.Message.Expected
import RestGateway.Message.Schema
import RestGateway.Message.Types
import RestGateway.Metadata.Annotate
import RestGateway.Metadata.Forward
import RestGateway.Method
import RestGateway.Number.Decimal
import RestGateway.Number.Digits
import RestGateway.Number.Floating
import RestGateway.Number.Integer
import RestGateway.Pieces
import RestGateway.Proofs.Deadline.Reading
import RestGateway.Proofs.Deadline.RoundTrip
import RestGateway.Proofs.Deadline.Writing
import RestGateway.Proofs.Dispatch.Answers
import RestGateway.Proofs.Dispatch.Calls
import RestGateway.Proofs.Dispatch.Expiry
import RestGateway.Proofs.Dispatch.InFlight
import RestGateway.Proofs.Dispatch.Limits
import RestGateway.Proofs.Dispatch.Refusal
import RestGateway.Proofs.Dispatch.Responses
import RestGateway.Proofs.Gateway.Allowed
import RestGateway.Proofs.Gateway.Audits
import RestGateway.Proofs.Gateway.Closing
import RestGateway.Proofs.Gateway.Forwarding
import RestGateway.Proofs.Gateway.Front
import RestGateway.Proofs.Gateway.Order
import RestGateway.Proofs.Gateway.Proxy
import RestGateway.Proofs.Gateway.Routing
import RestGateway.Proofs.Gateway.Sources
import RestGateway.Proofs.Grpc.Crossing
import RestGateway.Proofs.Grpc.Frame
import RestGateway.Proofs.Grpc.Framing
import RestGateway.Proofs.Grpc.Metadata
import RestGateway.Proofs.Grpc.Methods
import RestGateway.Proofs.Grpc.Relay
import RestGateway.Proofs.Header.Values
import RestGateway.Proofs.Json.Accepted
import RestGateway.Proofs.Json.Agreement
import RestGateway.Proofs.Json.Grammar
import RestGateway.Proofs.Json.Integer
import RestGateway.Proofs.Json.Known
import RestGateway.Proofs.Json.Meaning
import RestGateway.Proofs.Json.Messages
import RestGateway.Proofs.Json.Numerals
import RestGateway.Proofs.Json.Records
import RestGateway.Proofs.Json.RoundTrip
import RestGateway.Proofs.Json.Same
import RestGateway.Proofs.Json.Skipped
import RestGateway.Proofs.Json.Skipping
import RestGateway.Proofs.Json.Strings
import RestGateway.Proofs.Json.Text
import RestGateway.Proofs.Json.Value
import RestGateway.Proofs.Message.Fields
import RestGateway.Proofs.Metadata.Annotate
import RestGateway.Proofs.Metadata.Collected
import RestGateway.Proofs.Metadata.Forwarded
import RestGateway.Proofs.Metadata.Hops
import RestGateway.Proofs.Metadata.Origin
import RestGateway.Proofs.Number.Integer
import RestGateway.Proofs.Query.Checks
import RestGateway.Proofs.Query.Filtered
import RestGateway.Proofs.Query.Ignored
import RestGateway.Proofs.Query.Kept
import RestGateway.Proofs.Query.Pairs
import RestGateway.Proofs.Query.Reached
import RestGateway.Proofs.Query.Repeats
import RestGateway.Proofs.Query.RoundTrip
import RestGateway.Proofs.Query.Scan
import RestGateway.Proofs.Race.Polling
import RestGateway.Proofs.Request.Bodies
import RestGateway.Proofs.Request.Chunks
import RestGateway.Proofs.Request.Ignored
import RestGateway.Proofs.Request.PathFields
import RestGateway.Proofs.Route.Additions
import RestGateway.Proofs.Route.Compiling
import RestGateway.Proofs.Route.Matching
import RestGateway.Proofs.Route.Registration
import RestGateway.Proofs.Route.Variables
import RestGateway.Proofs.Settings.Precedence
import RestGateway.Proofs.Settings.Sources
import RestGateway.Proofs.Settings.Timeouts
import RestGateway.Proofs.Template.Faults
import RestGateway.Proofs.Template.Grammar
import RestGateway.Proofs.Template.Text
import RestGateway.Proofs.Text.Blanks
import RestGateway.Proofs.Text.Escapes
import RestGateway.Proofs.Text.Percent
import RestGateway.Proofs.Text.Pieces
import RestGateway.Proofs.Text.Utf8
import RestGateway.Proofs.Toml.Keys
import RestGateway.Proofs.Wire.Messages
import RestGateway.Proofs.Wire.RoundTrip
import RestGateway.Proofs.Wire.Varint
import RestGateway.Query.Parser
import RestGateway.Query.Record
import RestGateway.Query.Scan
import RestGateway.Query.Tree
import RestGateway.Query.Writer
import RestGateway.Race
import RestGateway.Request.Basic
import RestGateway.Request.Body
import RestGateway.Request.Collect
import RestGateway.Request.Decode
import RestGateway.Request.Query
import RestGateway.Response
import RestGateway.Route.Addition
import RestGateway.Route.Basic
import RestGateway.Route.Fields
import RestGateway.Route.Router
import RestGateway.Route.Table
import RestGateway.Rpc
import RestGateway.Service
import RestGateway.Session
import RestGateway.Settings.Field
import RestGateway.Settings.Limits
import RestGateway.Settings.Load
import RestGateway.Settings.Source
import RestGateway.Settings.Value
import RestGateway.Status
import RestGateway.Target
import RestGateway.Template
import RestGateway.Text.Base64
import RestGateway.Text.Blank
import RestGateway.Text.Percent
import RestGateway.Text.Printable
import RestGateway.Text.Quoted
import RestGateway.Text.Utf8
import RestGateway.Toml.Document
import RestGateway.Toml.Scalar
import RestGateway.Toml.Text
import RestGateway.Toml.Value
import RestGateway.Uri
import RestGateway.Wire.Basic
import RestGateway.Wire.Record
import RestGateway.Wire.Skip
