import Cuprum.Codec.PrefixCode
import Cuprum.Codec.WordCode
import Cuprum.Codec.Utf8
import Cuprum.Streams.Utf8
import Cuprum.Streams.Consume
import Cuprum.Echo.Truncation
import Cuprum.Echo.Utf8
import Cuprum.Echo.Stream
import Cuprum.Echo.LineBound
import Cuprum.Capture.Decode
import Cuprum.Capture.Accumulators
import Cuprum.Text.CodePoint
import Cuprum.Codec.Decoder
import Cuprum.Codec.CodeUnits
import Cuprum.Text.Lines
import Cuprum.Streams.LineBoundaries
import Cuprum.Context.Allowance
import Cuprum.Context.Policy
import Cuprum.Context.Core
import Cuprum.Transition.System
import Cuprum.Delivery.Worker
import Cuprum.Delivery.Queue
import Cuprum.Delivery.Conservation
import Cuprum.Delivery.Session
import Cuprum.Handle.Settlement
import Cuprum.Handle.Steps
import Cuprum.Handle.Shared
import Cuprum.Handle.Callers
import Cuprum.Handle.Finality
import Cuprum.Pump.Io
import Cuprum.Pump.Machine
import Cuprum.Pump.Trace
import Cuprum.Pump.Prefix
import Cuprum.Pump.Interruption
import Cuprum.Pump.Delivery
import Cuprum.Wait4.Process
import Cuprum.Wait4.Settlement
import Cuprum.Wait4.Reaping
import Cuprum.Wait4.Crossing
import Cuprum.Pipeline.Wait
import Cuprum.Pipeline.FailFast
import Cuprum.Pipeline.Decision
import Cuprum.NativePump.Handoff
import Cuprum.NativePump.Setup
import Cuprum.NativePump.Completion
import Cuprum.NativePump.Lifecycle
import Cuprum.NativePump.Release
import Cuprum.LineStream.Order
import Cuprum.LineStream.Outcome
import Cuprum.ExitWait.Readers
import Cuprum.ExitWait.Abandonment
import Cuprum.Finalization.Settlement
import Cuprum.BoundedEcho.Limiter
import Cuprum.BoundedEcho.Prefix
import Cuprum.Iteration.Descent
import Cuprum.BoundedEcho.Accounting
import Cuprum.Context.Blocks
import Cuprum.NativePump.Executor
import Cuprum.NativePump.Workers
import Cuprum.Pump.Copy
import Cuprum.Pump.Splice
import Cuprum.Pump.ZeroCopy
import Cuprum.Redaction.Coverage
import Cuprum.Spill.Absorbing
import Cuprum.Spill.Finishing
import Cuprum.Spill.Honesty
import Cuprum.Stdin.Closing
import Cuprum.Stdin.Streaming
import Cuprum.Tracing.Closing
import Cuprum.Executable.Binding
import Cuprum.Context.Environment
import Cuprum.Context.Registration
import Cuprum.Arbitration.Arbitrated
import Cuprum.Codec.Escaping
import Cuprum.Codec.Synchronizing
import Cuprum.Compaction.Slots
import Cuprum.Compaction.Table
import Cuprum.Concurrent.Result
import Cuprum.Concurrent.Runner
import Cuprum.Deadline.Reporting
import Cuprum.Drain.Disabling
import Cuprum.Drain.Keeping
import Cuprum.Handover.Order
import Cuprum.Concurrent.Scheduling
import Cuprum.Stdio.Spawned
import Cuprum.Detached.Launch
import Cuprum.Startup.Command
import Cuprum.Startup.Pipeline
import Cuprum.Stops.Escalations
import Cuprum.Drain.Undisturbed
import Cuprum.Effect.Recorder
import Cuprum.GitHubActions.Framing
import Cuprum.Idle.Driver
import Cuprum.ReaderWait.Attribution
import Cuprum.ReaderWait.Ending
import Cuprum.Relay.Closing
import Cuprum.Relay.Complete
import Cuprum.Rsync.Inert
import Cuprum.Spill.Answers
import Cuprum.Spill.Interruption
import Cuprum.StageStreams.InPlace
import Cuprum.StageStreams.Spawned
import Cuprum.Streams.HeldTail
import Cuprum.Teardown.Orderly
