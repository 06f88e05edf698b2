import FieldWire.Bytes
import FieldWire.WireType
import FieldWire.Integer
import FieldWire.Error
import FieldWire.Varint
import FieldWire.ZigZag
import FieldWire.LengthTag
import FieldWire.Binary
import FieldWire.Text
import FieldWire.Text.Hidden
import FieldWire.Text.Quoted
import FieldWire.Cursor
import FieldWire.Reader
import FieldWire.Write
import FieldWire.FieldSet
import FieldWire.Layout
import FieldWire.ObjectFormat
import FieldWire.Structured
import FieldWire.Deferred
import FieldWire.ElementFormat
import FieldWire.Sequence
import FieldWire.Dictionary
import FieldWire.EpochDate
import FieldWire.Message.FrameworkError
import FieldWire.Message.ErrorEnvelope
import FieldWire.Message.SignedChunk
import FieldWire.Message.Optional
import FieldWire.Record.Field
import FieldWire.Record
import FieldWire.Record.Catalog
import FieldWire.Tree
import FieldWire.Schema
import FieldWire.Schema.Describe
import FieldWire.Settings.Json
import FieldWire.Settings
import FieldWire.Stream.Error
import FieldWire.Stream.Framing
import FieldWire.Stream.Collector
import FieldWire.Stream.Credit
import FieldWire.Stream.Channel
import FieldWire.Stream.Splitter
import FieldWire.Hex
import FieldWire.Schema.Name
import FieldWire.Proofs.LengthTag
import FieldWire.Proofs.Reader
import FieldWire.Proofs.FixedWidth
import FieldWire.Proofs.Stream.Chunking
import FieldWire.Proofs.FieldSet
import FieldWire.Proofs.FieldSet.Header
import FieldWire.Proofs.Loader
import FieldWire.Proofs.Layout
import FieldWire.Proofs.Structured
import FieldWire.Proofs.View
import FieldWire.Proofs.Elements
import FieldWire.Proofs.Sequence
import FieldWire.Proofs.Dictionary
import FieldWire.Proofs.Narrowing
import FieldWire.Proofs.Structured.View
import FieldWire.Proofs.Structured.Measured
import FieldWire.Proofs.Messages
import FieldWire.Proofs.Optional
import FieldWire.Proofs.Schema
import FieldWire.Proofs.Built
import FieldWire.Proofs.Built.Message
import FieldWire.Proofs.Built.Schema
import FieldWire.Proofs.Reencoding
import FieldWire.Proofs.RoundTrip
import FieldWire.Proofs.Structured.RoundTrip
import FieldWire.Proofs.Accepts
import FieldWire.Proofs.Structured.Grammar
import FieldWire.Proofs.Structured.Fields
import FieldWire.Proofs.Record
import FieldWire.Proofs.Structured.Blocks
import FieldWire.Proofs.Structured.Coded
import FieldWire.Proofs.Structured.Evolution
import FieldWire.Proofs.Evolution
import FieldWire.Proofs.Confined
import FieldWire.Proofs.Confined.Structured
import FieldWire.Proofs.Delimited
import FieldWire.Proofs.Limit
import FieldWire.Proofs.Deferred
import FieldWire.Proofs.Peek
import FieldWire.Proofs.Held
import FieldWire.Proofs.Held.Schema
import FieldWire.Proofs.Received
import FieldWire.Proofs.Normal
import FieldWire.Proofs.Relay
import FieldWire.Proofs.History
import FieldWire.Proofs.History.Schema
import FieldWire.Proofs.Aging
import FieldWire.Proofs.Aging.Message
import FieldWire.Proofs.Aging.Schema
import FieldWire.Proofs.Dictionary.Keyed
import FieldWire.Proofs.Dictionary.Duplicates
import FieldWire.Proofs.Stream.Opening
import FieldWire.Proofs.Stream.Splitting
import FieldWire.Proofs.Stream.Delivery
import FieldWire.Proofs.Interrupted
import FieldWire.Proofs.Interrupted.Schema
import FieldWire.Proofs.Dictionary.Reference
import FieldWire.Proofs.Dictionary.Arrays
import FieldWire.Proofs.Equality
import FieldWire.Proofs.Reuse
import FieldWire.Proofs.Reuse.Schema
import FieldWire.Proofs.Structured.Independent
import FieldWire.Proofs.Structured.Permuted
import FieldWire.Proofs.Stream.Exchange
import FieldWire.Proofs.Stream.Exchange.Conservation
import FieldWire.Proofs.Stream.Exchange.Order
import FieldWire.Proofs.Stream.Exchange.Cancellation
import FieldWire.Proofs.Stream.Withdrawal
import FieldWire.Proofs.Stream.Collecting
import FieldWire.Proofs.Stream.Collecting.Surplus
import FieldWire.Proofs.Equivalence
import FieldWire.Proofs.Dictionary.Equality
import FieldWire.Proofs.Equivalence.Schema
import FieldWire.Proofs.Deferred.Slots
import FieldWire.Proofs.Deferred.Equality
import FieldWire.Proofs.Narrowing
import FieldWire.Proofs.Metered
import FieldWire.Proofs.Metered.Schema
import FieldWire.Proofs.Varint.Classification
import FieldWire.Proofs.Varint.Shortest
import FieldWire.Proofs.Stream.Retention
import FieldWire.Proofs.Structured.Dispatch
import FieldWire.Proofs.Script
import FieldWire.Proofs.Honest
import FieldWire.Proofs.Honest.Schema
import FieldWire.Proofs.Honest.Session
