import Mathlib.Data.List.Basic

namespace Cuprum.Tracing

/-- Executions are told apart by a token. -/
abbrev ExecId := Nat

/-- What a span attribute holds; a float is known by its bits. -/
inductive Value
  | str (text : String)
  | int (value : Int)
  | bool (value : Bool)
  | float (bits : BitVec 64)
  | strEnum (member : String)
  | list (items : List String)
  deriving DecidableEq

/-- `str` of a member of a string enumeration is its plain value. -/
def Value.rendered : Value → Value
  | .strEnum member => .str member
  | value => value

abbrev Attributes := List (String × Value)

inductive TerminalOutcome
  | exitZero
  | exitNonzero
  | timeout
  | cancelled
  | error
  deriving DecidableEq

def TerminalOutcome.text : TerminalOutcome → String
  | .exitZero => "exit_zero"
  | .exitNonzero => "exit_nonzero"
  | .timeout => "timeout"
  | .cancelled => "cancelled"
  | .error => "error"

inductive ExecPhase
  | plan
  | start
  | stdout
  | stderr
  | exit
  | settled
  | stdin
  | stdinError
  | stdioError
  | timeout
  | teardownError
  | captureEofGraceExpired
  | pipelineFailFast
  | groupTeardown
  deriving DecidableEq

def ExecPhase.text : ExecPhase → String
  | .plan => "plan"
  | .start => "start"
  | .stdout => "stdout"
  | .stderr => "stderr"
  | .exit => "exit"
  | .settled => "settled"
  | .stdin => "stdin"
  | .stdinError => "stdin_error"
  | .stdioError => "stdio_error"
  | .timeout => "timeout"
  | .teardownError => "teardown_error"
  | .captureEofGraceExpired => "capture_eof_grace_expired"
  | .pipelineFailFast => "pipeline_fail_fast"
  | .groupTeardown => "group_teardown"

/-- An event as the hook projects it, any redaction done.  `field` is what `getattr` finds
under the name of an optional field, and `attributes` are those a span is started with. -/
structure ExecEvent where
  phase : ExecPhase
  program : String
  execId : Option ExecId
  terminalOutcome : Option TerminalOutcome
  field : String → Option Value
  attributes : Attributes

def spanFields : List String :=
  ["line", "operation", "error_type", "note", "timeout_s", "timeout_mode", "eof_grace_s",
    "pending_readers", "owns_group", "group_outcome", "settle_s", "error_category"]

def enumSpanFields : List String := ["error_category"]

def exitResourceFields : List String :=
  ["max_rss_bytes", "user_cpu_seconds", "system_cpu_seconds", "resource_usage_mode"]

namespace ExecEvent

def present (event : ExecEvent) (fields : List String) : Attributes :=
  fields.filterMap fun field => (event.field field).map (field, ·)

def spanEventAttributes (event : ExecEvent) : Attributes :=
  (event.present spanFields).map fun (field, value) =>
    (field, if field ∈ enumSpanFields then value.rendered else value)

def failFastAttributes (event : ExecEvent) : Attributes :=
  event.present ["stage_index", "stage_count", "exit_code", "duration_s"]

end ExecEvent

structure LineStreamEvent where
  phase : String
  execId : ExecId
  pid : Option Int
  stream : Option String
  sink : Option String
  queueSize : Option Int
  queueCapacity : Option Int
  errorType : Option String

/-- An optional attribute, left out where there is none. -/
def optional (name : String) (value : Option Value) : Attributes :=
  (value.map (name, ·)).toList

def lineStreamAttributes (event : LineStreamEvent) : Attributes :=
  [("phase", .strEnum event.phase)] ++
    optional "pid" (event.pid.map .int) ++
    optional "stream" (event.stream.map .str) ++
    optional "sink" (event.sink.map .str) ++
    optional "queue_size" (event.queueSize.map .int) ++
    optional "queue_capacity" (event.queueCapacity.map .int) ++
    optional "error_type" (event.errorType.map .str)

inductive PumpPhase
  | declined
  | handoff
  | failedAfterCancel
  | cleanupStarted
  | cleanupCompleted
  | cleanupGraceExpired
  | cleanupDeferred
  deriving DecidableEq

/-- A cleanup phase by its name without the `cleanup_` in front. -/
def PumpPhase.cleanup : PumpPhase → Option String
  | .cleanupStarted => some "started"
  | .cleanupCompleted => some "completed"
  | .cleanupGraceExpired => some "grace_expired"
  | .cleanupDeferred => some "deferred"
  | .declined => none
  | .handoff => none
  | .failedAfterCancel => none

structure PumpEvent where
  phase : PumpPhase
  durationS : Option (BitVec 64)
  elapsedS : Option (BitVec 64)
  execId : Option ExecId

def buildCleanupAttributes (event : PumpEvent) (outcome : String) : Attributes :=
  [("operation", .str "native_pump_cleanup"), ("outcome", .str outcome)] ++
    (if event.phase = .cleanupCompleted then
      optional "duration_s" (event.durationS.map .float) else []) ++
    if event.phase = .cleanupGraceExpired then
      optional "elapsed_s" (event.elapsedS.map .float) else []

end Cuprum.Tracing
