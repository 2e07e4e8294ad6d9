import Cuprum.Tracing.Events
import Cuprum.Transition.System
import Mathlib.Logic.Function.Basic

namespace Cuprum.Tracing

open Transition

/-- A call on a backend span. -/
inductive SpanCall
  | setAttribute (key : String) (value : Value)
  | addEvent (name : String) (attributes : Attributes)
  | setStatus (ok : Bool)
  | end_
  deriving DecidableEq

/-- A tracing backend, by which calls return and do not raise: starting the span of a
number, and a call on a span after earlier ones. -/
structure Tracer where
  starts : Nat → String → Attributes → Bool
  returns : Nat → List SpanCall → SpanCall → Bool

namespace Tracer

/-- The backend meets its protocol without raising. -/
structure Reliable (tracer : Tracer) : Prop where
  starts : ∀ span name attributes, tracer.starts span name attributes = true
  returns : ∀ span calls call, tracer.returns span calls call = true

/-- The calls made on a span when further ones are, up to the first that raises. -/
def perform (tracer : Tracer) (span : Nat) (calls : List SpanCall) :
    List SpanCall → List SpanCall
  | [] => calls
  | call :: rest =>
      if tracer.returns span calls call then tracer.perform span (calls ++ [call]) rest
      else calls ++ [call]

end Tracer

/-- A span with the calls made on it, and the execution whose start opened it. -/
structure ActiveSpan where
  execId : ExecId
  name : String
  attributes : Attributes
  calls : List SpanCall
  isClosed : Bool
  deriving DecidableEq

def ActiveSpan.Ended (active : ActiveSpan) : Prop :=
  .end_ ∈ active.calls

instance (active : ActiveSpan) : Decidable active.Ended :=
  inferInstanceAs (Decidable (_ ∈ _))

/-- Where a handler is between its steps: each step is one call of the tracer's
`start_span`, one section under the registry's lock or one under a span's. -/
inductive Handler
  | opening (execId : ExecId) (name : String) (attributes : Attributes)
  | installing (execId : ExecId) (span : Nat)
  | looking (execId : ExecId) (writes : List SpanCall)
  | writing (span : Nat) (writes : List SpanCall)
  | popping (execId : ExecId) (outcome : TerminalOutcome)
  | closing (span : Nat) (writes : List SpanCall)
  | done
  deriving DecidableEq

/-! The handlers of the hook, from the delivery of their event. -/

def handleStart (event : ExecEvent) : Handler :=
  match event.execId with
  | none => .done
  | some execId => .opening execId s!"cuprum.exec {event.program}" event.attributes

def recordSpanEvent (event : ExecEvent) : Handler :=
  match event.execId with
  | none => .done
  | some execId =>
      .looking execId [.addEvent s!"cuprum.{event.phase.text}" event.spanEventAttributes]

def writeExitAttributes (event : ExecEvent) : List SpanCall :=
  (event.present ("exit_code" :: "duration_s" :: exitResourceFields)).map fun (field, value) =>
    .setAttribute s!"cuprum.{field}" value

def handleExit (event : ExecEvent) : Handler :=
  match event.execId with
  | none => .done
  | some execId => .looking execId (writeExitAttributes event)

def handleSettled (event : ExecEvent) : Handler :=
  match event.execId, event.terminalOutcome with
  | some execId, some outcome => .popping execId outcome
  | _, _ => .done

def recordFailFast (event : ExecEvent) : Handler :=
  match event.execId with
  | none => .done
  | some execId =>
      .looking execId [.addEvent "cuprum.pipeline_fail_fast" event.failFastAttributes]

def handleEvent (recordOutput : Bool) (event : ExecEvent) : Handler :=
  match event.phase with
  | .plan | .stdin => .done
  | .start => handleStart event
  | .stdout | .stderr => if recordOutput then recordSpanEvent event else .done
  | .stdinError | .stdioError | .timeout | .teardownError | .captureEofGraceExpired
  | .groupTeardown => recordSpanEvent event
  | .pipelineFailFast => recordFailFast event
  | .exit => handleExit event
  | .settled => handleSettled event

def recordEventOn (execId : Option ExecId) (name : String) (attributes : Attributes) :
    Handler :=
  match execId with
  | none => .done
  | some execId => .looking execId [.addEvent name attributes]

def recordLineStreamEvent (event : LineStreamEvent) : Handler :=
  .looking event.execId [.addEvent "cuprum.line_stream" (lineStreamAttributes event)]

def recordPumpEvent (event : PumpEvent) : Handler :=
  match event.phase.cleanup, event.execId with
  | some outcome, some execId =>
      .looking execId
        [.addEvent s!"cuprum.cleanup_{outcome}" (buildCleanupAttributes event outcome)]
  | _, _ => .done

/-- What reaches the hook, on whichever of its channels. -/
inductive Delivery
  | exec (event : ExecEvent)
  | control (execId : Option ExecId) (name : String) (attributes : Attributes)
  | lineStream (event : LineStreamEvent)
  | pump (event : PumpEvent)

def Delivery.handler (recordOutput : Bool) : Delivery → Handler
  | .exec event => handleEvent recordOutput event
  | .control execId name attributes => recordEventOn execId name attributes
  | .lineStream event => recordLineStreamEvent event
  | .pump event => recordPumpEvent event

/-- A later start of an execution, or its settled event with an outcome. -/
def Delivery.Closes (execId : ExecId) : Delivery → Prop
  | .exec event =>
      event.execId = some execId ∧
        (event.phase = .start ∨ event.phase = .settled ∧ event.terminalOutcome ≠ none)
  | _ => False

/-- The hook with its registry, the spans it has opened and its handlers. -/
structure TracingHook where
  activeSpans : ExecId → Option Nat
  spans : Nat → Option ActiveSpan
  spanCount : Nat
  handlers : Nat → Handler
  handlerCount : Nat

inductive Event
  | deliver (delivery : Delivery)
  | step (handler : Nat)

def Event.isStep : Event → Bool
  | .step _ => true
  | .deliver _ => false

namespace TracingHook

def initial : TracingHook where
  activeSpans _ := none
  spans _ := none
  spanCount := 0
  handlers _ := .done
  handlerCount := 0

def setHandler (self : TracingHook) (handler : Nat) (value : Handler) : TracingHook :=
  { self with handlers := Function.update self.handlers handler value }

def deliver (recordOutput : Bool) (self : TracingHook) (delivery : Delivery) : TracingHook :=
  { self.setHandler self.handlerCount (delivery.handler recordOutput) with
    handlerCount := self.handlerCount + 1 }

/-- Outside every lock: a backend that raises ends the handler. -/
def startSpan (tracer : Tracer) (self : TracingHook) (handler : Nat) (execId : ExecId)
    (name : String) (attributes : Attributes) : TracingHook :=
  if tracer.starts self.spanCount name attributes then
    { self.setHandler handler (.installing execId self.spanCount) with
      spans := Function.update self.spans self.spanCount
        (some ⟨execId, name, attributes, [], false⟩)
      spanCount := self.spanCount + 1 }
  else self.setHandler handler .done

def closeSpanCalls (ok : Bool) : List SpanCall :=
  [.setStatus ok, .end_]

/-- Under the registry's lock: the new span takes the place of one already mapped. -/
def install (self : TracingHook) (handler : Nat) (execId : ExecId) (span : Nat) :
    TracingHook :=
  let next :=
    match self.activeSpans execId with
    | some stale => .closing stale (closeSpanCalls false)
    | none => .done
  { self.setHandler handler next with
    activeSpans := Function.update self.activeSpans execId (some span) }

def lookupExecSpan (self : TracingHook) (handler : Nat) (execId : ExecId)
    (writes : List SpanCall) : TracingHook :=
  match self.activeSpans execId with
  | some span => self.setHandler handler (.writing span writes)
  | none => self.setHandler handler .done

def settledCalls (outcome : TerminalOutcome) : List SpanCall :=
  .setAttribute "cuprum.terminal_outcome" (.str outcome.text) ::
    closeSpanCalls (outcome == .exitZero)

def pop (self : TracingHook) (handler : Nat) (execId : ExecId) (outcome : TerminalOutcome) :
    TracingHook :=
  match self.activeSpans execId with
  | some span =>
      { self.setHandler handler (.closing span (settledCalls outcome)) with
        activeSpans := Function.update self.activeSpans execId none }
  | none => self.setHandler handler .done

/-- Under the span's lock: nothing is done on a span that is closed. -/
def under (tracer : Tracer) (self : TracingHook) (handler span : Nat)
    (writes : List SpanCall) (closes : Bool) : TracingHook :=
  match self.spans span with
  | some active =>
      if active.isClosed then self.setHandler handler .done
      else
        { self.setHandler handler .done with
          spans := Function.update self.spans span
            (some { active with
              isClosed := closes
              calls := tracer.perform span active.calls writes }) }
  | none => self.setHandler handler .done

def next (tracer : Tracer) (recordOutput : Bool) (self : TracingHook) :
    Event → Option TracingHook
  | .deliver delivery => some (self.deliver recordOutput delivery)
  | .step handler =>
      match self.handlers handler with
      | .opening execId name attributes =>
          some (self.startSpan tracer handler execId name attributes)
      | .installing execId span => some (self.install handler execId span)
      | .looking execId writes => some (self.lookupExecSpan handler execId writes)
      | .writing span writes => some (self.under tracer handler span writes false)
      | .popping execId outcome => some (self.pop handler execId outcome)
      | .closing span writes => some (self.under tracer handler span writes true)
      | .done => none

end TracingHook

def tracingHook (tracer : Tracer) (recordOutput : Bool) : System TracingHook Event where
  initial := .initial
  next := TracingHook.next tracer recordOutput

end Cuprum.Tracing
