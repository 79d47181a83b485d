import TraceLog.Buffer.Threads
import TraceLog.Payload.Tensor
import TraceLog.Record.DateTime
import TraceLog.Recorder
import TraceLog.Proofs.Threads.Locks
import TraceLog.Proofs.Threads.Order
import TraceLog.Proofs.Threads.Barrier
import TraceLog.Proofs.Payload.Counting
import TraceLog.Proofs.Payload.Encodable
import TraceLog.Proofs.Payload.RowMajor
import TraceLog.Proofs.Json.Controls
import TraceLog.Proofs.Record.OneLine
import TraceLog.Proofs.Record.Merge
import TraceLog.Proofs.Recorder.Request
import TraceLog.Proofs.Store.Calls
import TraceLog.Proofs.Store.Slots
import TraceLog.Proofs.Store.Rotation
import TraceLog.Proofs.Store.Lines
import TraceLog.Proofs.Recorder.Calls
import TraceLog.Proofs.Recorder.Log
import TraceLog.Proofs.Recorder.Account
import TraceLog.Proofs.Record.Batch
import TraceLog.Proofs.Threads.Alone
import TraceLog.Proofs.Threads.Balance
import TraceLog.Proofs.Number.Value
import TraceLog.Proofs.Store.Sizes
import TraceLog.Proofs.Number.Rounding
import TraceLog.Proofs.Number.Shortest
import TraceLog.Proofs.Json.Numbers
import TraceLog.Proofs.Json.Strings
import TraceLog.Proofs.Json.RoundTrip
import TraceLog.Proofs.Json.Accepted
import TraceLog.Proofs.Schema.Fits
import TraceLog.Proofs.Schema.RoundTrip
import TraceLog.Proofs.Schema.Accepted
import TraceLog.Proofs.Settings.Faithful
import TraceLog.Proofs.Record.Lossless
import TraceLog.Proofs.Payload.Scalars
import TraceLog.Proofs.Recorder.Floats
import TraceLog.Proofs.Payload.RoundTrip
import TraceLog.Proofs.Threads.Progress
import TraceLog.Proofs.Store.Write
import TraceLog.Proofs.Payload.Idempotence
import TraceLog.Proofs.Payload.Walk
import TraceLog.Proofs.Record.Fields
import TraceLog.Proofs.Store.Discards
import TraceLog.Proofs.Payload.Tensors
import TraceLog.Proofs.Payload.Lists
import TraceLog.Proofs.Payload.Equality
import TraceLog.Proofs.Buffer.Policy
import TraceLog.Proofs.Store.Neighbours
import TraceLog.Proofs.Recorder.Construction
import TraceLog.Proofs.Record.DateTime
import TraceLog.Proofs.Settings.Overlay
