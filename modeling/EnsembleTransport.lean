import EnsembleTransport.Digits
import EnsembleTransport.Octets
import EnsembleTransport.Octets.Cursor
import EnsembleTransport.Event
import EnsembleTransport.ErrorPolicy
import EnsembleTransport.MessageFault
import EnsembleTransport.Envelope
import EnsembleTransport.FrameSet
import EnsembleTransport.Reassembly
import EnsembleTransport.Metadata.Tag
import EnsembleTransport.Metadata.Record
import EnsembleTransport.Metadata.Group
import EnsembleTransport.Binary64
import EnsembleTransport.Binary64.Decimal
import EnsembleTransport.FrameSync
import EnsembleTransport.Timestamp
import EnsembleTransport.Calendar
import EnsembleTransport.FrameTiming
import EnsembleTransport.Throughput
import EnsembleTransport.Link.Fault
import EnsembleTransport.Link.Source
import EnsembleTransport.Link.Sink
import EnsembleTransport.Link.Endpoint
import EnsembleTransport.Diagnosis
import EnsembleTransport.Receiver.Counters
import EnsembleTransport.Receiver.Run
import EnsembleTransport.Toml.Value
import EnsembleTransport.Toml.Text
import EnsembleTransport.Toml.Scalar
import EnsembleTransport.Toml.Document
import EnsembleTransport.Settings.Blank
import EnsembleTransport.Settings.Basic
import EnsembleTransport.Settings.Decode
import EnsembleTransport.Settings.Tree
import EnsembleTransport.Settings.Load
import EnsembleTransport.LogFilter
import EnsembleTransport.CommandLine.Arguments
import EnsembleTransport.CommandLine.Session
import EnsembleTransport.Main
import EnsembleTransport.Proofs.Message.Windows
import EnsembleTransport.Proofs.Message.Acceptance
import EnsembleTransport.Proofs.Message.Reassembly
import EnsembleTransport.Proofs.Metadata.Grammar
import EnsembleTransport.Proofs.Receiver.Verdict
import EnsembleTransport.Proofs.Receiver.Ledger
import EnsembleTransport.Proofs.Receiver.Carried
import EnsembleTransport.Proofs.Receiver.Watch
import EnsembleTransport.Proofs.Receiver.Script
import EnsembleTransport.Proofs.Receiver.Turn
import EnsembleTransport.Proofs.Receiver.Policies
import EnsembleTransport.Proofs.Message.RoundTrip
import EnsembleTransport.Proofs.Frame.Layout
import EnsembleTransport.Proofs.Binary64.Exact
import EnsembleTransport.Proofs.Frame.Timing
import EnsembleTransport.Proofs.Diagnosis.Entries
import EnsembleTransport.Proofs.Diagnosis.Accepted
import EnsembleTransport.Proofs.Diagnosis.Truncation
import EnsembleTransport.Proofs.Diagnosis.Independence
import EnsembleTransport.Proofs.Diagnosis.Observation
import EnsembleTransport.Proofs.Receiver.Observation
import EnsembleTransport.Proofs.Receiver.Resumption
import EnsembleTransport.Proofs.Walk.Group
import EnsembleTransport.Proofs.Walk.Diagnosis
import EnsembleTransport.Proofs.Diagnosis.FaultClasses
import EnsembleTransport.Proofs.Receiver.Books
import EnsembleTransport.Proofs.Receiver.Accounts
import EnsembleTransport.Proofs.Receiver.Interruption
import EnsembleTransport.Proofs.Receiver.Writes
import EnsembleTransport.Proofs.Receiver.Filling
import EnsembleTransport.Proofs.Frame.Refusals
import EnsembleTransport.Proofs.Message.Refusals
import EnsembleTransport.Proofs.Receiver.Flushing
import EnsembleTransport.Proofs.Toml.Keys
import EnsembleTransport.Proofs.Settings.Keys
import EnsembleTransport.Proofs.Settings.Overlay
import EnsembleTransport.Proofs.Settings.Layers
import EnsembleTransport.Proofs.Metadata.Refusals
import EnsembleTransport.Proofs.Metadata.Boundaries
import EnsembleTransport.Proofs.Metadata.Concatenation
import EnsembleTransport.Proofs.Metadata.Lengths
import EnsembleTransport.Proofs.Binary64.Rounding
import EnsembleTransport.Proofs.Frame.Alignment
import EnsembleTransport.Proofs.Throughput.Reports
import EnsembleTransport.Proofs.Octets.Spelling
import EnsembleTransport.Proofs.Octets.Operations
import EnsembleTransport.Proofs.Octets.Cursor64
