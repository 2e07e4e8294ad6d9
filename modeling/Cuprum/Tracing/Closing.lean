import Cuprum.Tracing.Spans
import Mathlib.Algebra.BigOperators.Group.Finset.Basic
import Mathlib.Algebra.Order.BigOperators.Group.Finset

namespace Cuprum.Tracing

open Transition

/-- A span belongs to the execution it was opened for, and is not opened again. -/
structure ActiveSpan.Becomes (active later : ActiveSpan) : Prop where
  execId : later.execId = active.execId
  closed : active.isClosed = true → later.isClosed = true

theorem ActiveSpan.Becomes.refl (active : ActiveSpan) : active.Becomes active :=
  ⟨rfl, id⟩

namespace TracingHook

variable {state after : TracingHook} {tracer : Tracer} {recordOutput : Bool}

/-- One section under the lock of a span, on that span and on any other. -/
theorem under_spans (handler target : Nat) (writes : List SpanCall) (closes : Bool)
    {span : Nat} {active : ActiveSpan} (known : state.spans span = some active) :
    ∃ later, (state.under tracer handler target writes closes).spans span = some later ∧
      active.Becomes later ∧ (span = target → closes = true → later.isClosed = true) := by
  unfold under
  split
  next found at_ =>
    split
    next closed =>
      refine ⟨active, known, .refl active, ?_⟩
      intro same _
      subst same
      cases known.symm.trans at_
      exact closed
    next opened =>
      by_cases same : span = target
      · subst same
        cases known.symm.trans at_
        refine ⟨_, Function.update_self .., ⟨rfl, ?_⟩, fun _ closing => closing⟩
        intro closed
        exact absurd closed opened
      · refine ⟨active, (Function.update_of_ne same ..).trans known, .refl active, ?_⟩
        intro equal
        exact absurd equal same
  next none =>
    refine ⟨active, known, .refl active, ?_⟩
    intro same
    subst same
    cases known.symm.trans none

@[simp] theorem under_handlers (handler target : Nat) (writes : List SpanCall)
    (closes : Bool) : (state.under tracer handler target writes closes).handlers =
      Function.update state.handlers handler .done := by
  unfold under
  split
  next => split <;> rfl
  next => rfl

@[simp] theorem under_activeSpans (handler target : Nat) (writes : List SpanCall)
    (closes : Bool) :
    (state.under tracer handler target writes closes).activeSpans = state.activeSpans := by
  unfold under
  split
  next => split <;> rfl
  next => rfl

@[simp] theorem under_handlerCount (handler target : Nat) (writes : List SpanCall)
    (closes : Bool) :
    (state.under tracer handler target writes closes).handlerCount = state.handlerCount := by
  unfold under
  split
  next => split <;> rfl
  next => rfl

theorem next_spans (sound : Sound state) {event : Event}
    (step : state.next tracer recordOutput event = some after) {span : Nat}
    {active : ActiveSpan} (known : state.spans span = some active) :
    ∃ later, after.spans span = some later ∧ active.Becomes later := by
  have same : ∃ later, state.spans span = some later ∧ active.Becomes later :=
    ⟨active, known, .refl active⟩
  cases event with
  | deliver delivery =>
      cases step
      exact same
  | step handler =>
      simp only [next] at step
      split at step
      next =>
        cases step
        unfold startSpan
        split
        next =>
          have differ : span ≠ state.spanCount := by
            intro equal
            rw [equal, sound.unopened state.spanCount (Nat.le_refl _)] at known
            cases known
          exact ⟨active, (Function.update_of_ne differ ..).trans known, .refl active⟩
        next => exact same
      next =>
        cases step
        exact same
      next =>
        cases step
        unfold lookupExecSpan
        split <;> exact same
      next target writes _ =>
        cases step
        obtain ⟨later, found, becomes, _⟩ := under_spans handler target writes false known
        exact ⟨later, found, becomes⟩
      next =>
        cases step
        unfold pop
        split <;> exact same
      next target writes _ =>
        cases step
        obtain ⟨later, found, becomes, _⟩ := under_spans handler target writes true known
        exact ⟨later, found, becomes⟩
      next => cases step

/-- A handler is moved by its own steps only. -/
theorem next_handlers {handler other : Nat} (differ : other ≠ handler)
    (step : state.next tracer recordOutput (.step handler) = some after) :
    after.handlers other = state.handlers other := by
  simp only [next] at step
  split at step
  next =>
    cases step
    unfold startSpan
    split <;> exact Function.update_of_ne differ ..
  next =>
    cases step
    exact Function.update_of_ne differ ..
  next =>
    cases step
    unfold lookupExecSpan
    split <;> exact Function.update_of_ne differ ..
  next =>
    cases step
    rw [under_handlers]
    exact Function.update_of_ne differ ..
  next =>
    cases step
    unfold pop
    split <;> exact Function.update_of_ne differ ..
  next =>
    cases step
    rw [under_handlers]
    exact Function.update_of_ne differ ..
  next => cases step

theorem next_handlerCount {handler : Nat}
    (step : state.next tracer recordOutput (.step handler) = some after) :
    after.handlerCount = state.handlerCount := by
  simp only [next] at step
  split at step
  next =>
    cases step
    unfold startSpan
    split <;> rfl
  next =>
    cases step
    rfl
  next =>
    cases step
    unfold lookupExecSpan
    split <;> rfl
  next =>
    cases step
    rw [under_handlerCount]
  next =>
    cases step
    unfold pop
    split <;> rfl
  next =>
    cases step
    rw [under_handlerCount]
  next => cases step

end TracingHook

namespace Handler

def remaining : Handler → Nat
  | .opening .. => 3
  | .installing .. => 2
  | .looking .. => 2
  | .popping .. => 2
  | .writing .. => 1
  | .closing .. => 1
  | .done => 0

/-- The handler is on its way to the execution's entry in the registry, to replace it or
to take it out. -/
def Displaces (execId : ExecId) (handler : Handler) : Prop :=
  (∃ name attributes, handler = .opening execId name attributes) ∨
    (∃ span, handler = .installing execId span) ∨
      ∃ outcome, handler = .popping execId outcome

section Displaces

variable {execId other : ExecId}

@[simp] theorem displaces_opening {name : String} {attributes : Attributes} :
    (opening other name attributes).Displaces execId ↔ other = execId := by
  simp [Displaces]

@[simp] theorem displaces_installing {span : Nat} :
    (installing other span).Displaces execId ↔ other = execId := by
  simp [Displaces]

@[simp] theorem displaces_popping {outcome : TerminalOutcome} :
    (popping other outcome).Displaces execId ↔ other = execId := by
  simp [Displaces]

@[simp] theorem not_displaces_looking {writes : List SpanCall} :
    ¬ (looking other writes).Displaces execId := by
  simp [Displaces]

@[simp] theorem not_displaces_writing {span : Nat} {writes : List SpanCall} :
    ¬ (writing span writes).Displaces execId := by
  simp [Displaces]

@[simp] theorem not_displaces_closing {span : Nat} {writes : List SpanCall} :
    ¬ (closing span writes).Displaces execId := by
  simp [Displaces]

@[simp] theorem not_displaces_done : ¬ done.Displaces execId := by
  simp [Displaces]

end Displaces

end Handler

theorem Delivery.Closes.displaces {delivery : Delivery} {execId : ExecId}
    (closes : delivery.Closes execId) (recordOutput : Bool) :
    (delivery.handler recordOutput).Displaces execId := by
  cases delivery with
  | exec event =>
      obtain ⟨known, start | ⟨settled, outcome⟩⟩ := closes
      · refine .inl ⟨s!"cuprum.exec {event.program}", event.attributes, ?_⟩
        simp only [Delivery.handler, handleEvent, start, handleStart, known]
      · obtain ⟨category, carried⟩ := Option.ne_none_iff_exists'.mp outcome
        refine .inr (.inr ⟨category, ?_⟩)
        simp only [Delivery.handler, handleEvent, settled, handleSettled, known, carried]
  | control => exact closes.elim
  | lineStream => exact closes.elim
  | pump => exact closes.elim

namespace TracingHook

variable {state after : TracingHook} {tracer : Tracer} {recordOutput : Bool}

theorem next_remaining {handler : Nat}
    (step : state.next tracer recordOutput (.step handler) = some after) :
    (after.handlers handler).remaining < (state.handlers handler).remaining := by
  simp only [next] at step
  split at step
  next at_ =>
    cases step
    rw [at_]
    unfold startSpan
    split <;> simp [setHandler, Handler.remaining]
  next at_ =>
    cases step
    rw [at_, install]
    split <;> simp [setHandler, Handler.remaining]
  next at_ =>
    cases step
    rw [at_]
    unfold lookupExecSpan
    split <;> simp [setHandler, Handler.remaining]
  next at_ =>
    cases step
    rw [at_, under_handlers, Function.update_self]
    exact Nat.zero_lt_one
  next at_ =>
    cases step
    rw [at_]
    unfold pop
    split <;> simp [setHandler, Handler.remaining]
  next at_ =>
    cases step
    rw [at_, under_handlers, Function.update_self]
    exact Nat.zero_lt_one
  next => cases step

def remaining (state : TracingHook) : Nat :=
  ∑ handler ∈ Finset.range state.handlerCount, (state.handlers handler).remaining

theorem remaining_lt (sound : Sound state) {handler : Nat}
    (step : state.next tracer recordOutput (.step handler) = some after) :
    after.remaining < state.remaining := by
  have lower := next_remaining step
  have counted : handler < state.handlerCount := by
    apply sound.handler_lt
    intro done
    rw [done] at lower
    exact Nat.not_lt_zero _ lower
  unfold remaining
  rw [next_handlerCount step]
  apply Finset.sum_lt_sum
  · intro other _
    by_cases same : other = handler
    · exact same ▸ Nat.le_of_lt lower
    · exact Nat.le_of_eq (congrArg Handler.remaining (next_handlers same step))
  · exact ⟨handler, Finset.mem_range.mpr counted, lower⟩

theorem next_isSome (tracer : Tracer) (recordOutput : Bool) {handler : Nat}
    (busy : state.handlers handler ≠ .done) :
    (state.next tracer recordOutput (.step handler)).isSome = true := by
  simp only [next]
  split
  case h_7 at_ => exact absurd at_ busy
  all_goals rfl

end TracingHook

/-- The span is closed, a handler is to close it, or one that was delivered is on its way
to take it out of the registry. -/
def Doomed (span handler : Nat) (state : TracingHook) : Prop :=
  ∃ active, state.spans span = some active ∧
    (active.isClosed = true ∨
      (∃ other writes, state.handlers other = .closing span writes) ∨
        state.activeSpans active.execId = some span ∧
          (state.handlers handler).Displaces active.execId)

namespace Doomed

variable {state after : TracingHook} {tracer : Tracer} {recordOutput : Bool}
  {span handler : Nat}

theorem closing {other mover : Nat} {writes : List SpanCall} {active : ActiveSpan}
    (sound : Sound state) (known : state.spans span = some active)
    (closes : state.handlers other = .closing span writes)
    (step : state.next tracer recordOutput (.step mover) = some after) :
    Doomed span handler after := by
  obtain ⟨later, found, _⟩ := state.next_spans sound step known
  by_cases same : other = mover
  · subst same
    simp only [TracingHook.next, closes] at step
    cases step
    obtain ⟨last, ended, _, closed⟩ := state.under_spans other span writes true known
    exact ⟨last, ended, .inl (closed rfl rfl)⟩
  · refine ⟨later, found, .inr (.inl ⟨other, writes, ?_⟩)⟩
    rw [state.next_handlers same step]
    exact closes

section Mapped

variable {mover : Nat} {active : ActiveSpan} (sound : Sound state)
  (known : state.spans span = some active)
  (mapped : state.activeSpans active.execId = some span)
  (displaces : (state.handlers handler).Displaces active.execId)
  (step : state.next tracer recordOutput (.step mover) = some after)

include sound known mapped displaces step

/-- The registry is as before, and so is the handler unless it is the one that moved. -/
theorem of_still (same : after.activeSpans = state.activeSpans)
    (moves : mover = handler → (after.handlers handler).Displaces active.execId) :
    Doomed span handler after := by
  obtain ⟨later, found, becomes⟩ := state.next_spans sound step known
  refine ⟨later, found, .inr (.inr ⟨?_, ?_⟩)⟩
  · rw [same, becomes.execId]
    exact mapped
  · rw [becomes.execId]
    by_cases moved : mover = handler
    · exact moves moved
    · rw [state.next_handlers (Ne.symm moved) step]
      exact displaces

/-- An entry of the registry is replaced, and what was there is left to who moved. -/
theorem of_replaced {execId : ExecId} {new : Option Nat} (writes : List SpanCall)
    (own : (state.handlers mover).Displaces active.execId → execId = active.execId)
    (entry : after.activeSpans = Function.update state.activeSpans execId new)
    (moved : after.handlers mover = Sound.closer (state.activeSpans execId) writes) :
    Doomed span handler after := by
  obtain ⟨later, found, becomes⟩ := state.next_spans sound step known
  by_cases same : execId = active.execId
  · subst same
    rw [mapped] at moved
    exact ⟨later, found, .inr (.inl ⟨mover, writes, moved⟩)⟩
  · have differ : mover ≠ handler := fun equal => same (own (equal ▸ displaces))
    refine ⟨later, found, .inr (.inr ⟨?_, ?_⟩)⟩
    · rw [entry, becomes.execId, Function.update_of_ne (Ne.symm same)]
      exact mapped
    · rw [becomes.execId, state.next_handlers (Ne.symm differ) step]
      exact displaces

end Mapped

/-- Whichever handler takes the span out of the registry is left with it. -/
theorem displacing {mover : Nat} {active : ActiveSpan} (sound : Sound state)
    (reliable : tracer.Reliable) (known : state.spans span = some active)
    (mapped : state.activeSpans active.execId = some span)
    (displaces : (state.handlers handler).Displaces active.execId)
    (step : state.next tracer recordOutput (.step mover) = some after) :
    Doomed span handler after := by
  have moves := step
  simp only [TracingHook.next] at moves
  split at moves
  next execId name attributes at_ =>
    cases moves
    have starts : state.startSpan tracer mover execId name attributes = _ :=
      if_pos (reliable.starts ..)
    refine of_still sound known mapped displaces step (by rw [starts]; rfl) ?_
    rintro rfl
    rw [at_, Handler.displaces_opening] at displaces
    subst displaces
    rw [starts]
    exact .inr (.inl ⟨_, Function.update_self ..⟩)
  next execId new at_ =>
    cases moves
    refine of_replaced sound known mapped displaces step (TracingHook.closeSpanCalls false) ?_
      rfl (Function.update_self ..)
    rw [at_]
    exact Handler.displaces_installing.mp
  next execId writes at_ =>
    cases moves
    refine of_still sound known mapped displaces step ?_ ?_
    · unfold TracingHook.lookupExecSpan
      split <;> rfl
    · rintro rfl
      exact absurd (at_ ▸ displaces) Handler.not_displaces_looking
  next target writes at_ =>
    cases moves
    refine of_still sound known mapped displaces step (state.under_activeSpans ..) ?_
    rintro rfl
    exact absurd (at_ ▸ displaces) Handler.not_displaces_writing
  next execId outcome at_ =>
    cases moves
    cases entry : state.activeSpans execId with
    | some stale =>
        simp only [TracingHook.pop, entry] at step ⊢
        refine of_replaced sound known mapped displaces step (TracingHook.settledCalls outcome)
          ?_ rfl ?_
        · rw [at_]
          exact Handler.displaces_popping.mp
        · rw [entry]
          exact Function.update_self ..
    | none =>
        refine of_still sound known mapped displaces step ?_ ?_
        · simp only [TracingHook.pop, entry]
          rfl
        · rintro rfl
          rw [at_, Handler.displaces_popping] at displaces
          subst displaces
          cases mapped.symm.trans entry
  next target writes at_ =>
    cases moves
    refine of_still sound known mapped displaces step (state.under_activeSpans ..) ?_
    rintro rfl
    exact absurd (at_ ▸ displaces) Handler.not_displaces_closing
  next => cases moves

theorem next (sound : Sound state) (reliable : tracer.Reliable) {event : Event}
    (doomed : Doomed span handler state)
    (step : state.next tracer recordOutput event = some after) :
    Doomed span handler after := by
  obtain ⟨active, known, closed | ⟨other, writes, closes⟩ | ⟨mapped, displaces⟩⟩ := doomed
  · obtain ⟨later, found, becomes⟩ := state.next_spans sound step known
    exact ⟨later, found, .inl (becomes.closed closed)⟩
  · cases event with
    | deliver delivery =>
        cases step
        have differ : other ≠ state.handlerCount := by
          intro same
          rw [same, sound.idle state.handlerCount (Nat.le_refl _)] at closes
          cases closes
        exact ⟨active, known, .inr (.inl ⟨other, writes,
          (Function.update_of_ne differ ..).trans closes⟩)⟩
    | step mover => exact closing sound known closes step
  · cases event with
    | deliver delivery =>
        cases step
        have differ : handler ≠ state.handlerCount := by
          intro same
          rw [same, sound.idle state.handlerCount (Nat.le_refl _)] at displaces
          exact Handler.not_displaces_done displaces
        refine ⟨active, known, .inr (.inr ⟨mapped, ?_⟩)⟩
        have same : (state.deliver recordOutput delivery).handlers handler =
            state.handlers handler := Function.update_of_ne differ ..
        rwa [same]
    | step mover => exact displacing sound reliable known mapped displaces step

/-- A delivery that is to close the execution's span dooms one that is installed. -/
theorem of_deliver (sound : Sound state) {active : ActiveSpan}
    (known : state.spans span = some active)
    (installed : ∀ other, state.handlers other ≠ .installing active.execId span)
    {delivery : Delivery} (closes : delivery.Closes active.execId)
    (step : state.next tracer recordOutput (.deliver delivery) = some after) :
    Doomed span state.handlerCount after := by
  cases step
  refine ⟨active, known, ?_⟩
  by_cases closed : active.isClosed = true
  · exact .inl closed
  have opened : active.isClosed = false := Bool.eq_false_iff.mpr closed
  rcases sound.placed span active known opened with mapped | ⟨other, installs⟩ |
    ⟨other, writes, closing⟩
  · refine .inr (.inr ⟨mapped, ?_⟩)
    have new : (state.deliver recordOutput delivery).handlers state.handlerCount =
        delivery.handler recordOutput := Function.update_self ..
    rw [new]
    exact closes.displaces recordOutput
  · exact absurd installs (installed other)
  · have differ : other ≠ state.handlerCount := by
      intro same
      rw [same, sound.idle state.handlerCount (Nat.le_refl _)] at closing
      cases closing
    exact .inr (.inl ⟨other, writes, (Function.update_of_ne differ ..).trans closing⟩)

end Doomed

/-- Where the backend does not raise, a closed span has been ended. -/
def Settled (state : TracingHook) : Prop :=
  ∀ span active, state.spans span = some active → active.isClosed = true → active.Ended

theorem Settled.next {state after : TracingHook} {tracer : Tracer} {recordOutput : Bool}
    (settled : Settled state) (sound : Sound state) (reliable : tracer.Reliable)
    {event : Event} (step : state.next tracer recordOutput event = some after) :
    Settled after := by
  have under : ∀ {handler span : Nat} {writes : List SpanCall} {closes : Bool},
      (closes = true → .end_ ∈ writes) →
        Settled (state.under tracer handler span writes closes) := by
    intro handler span writes closes ends
    unfold TracingHook.under
    split
    next active known =>
      split
      next => exact settled
      next opened =>
        intro other found written closed
        rcases update_eq_iff.mp written with ⟨_, now⟩ | ⟨_, old⟩
        · cases now
          rw [ActiveSpan.Ended, reliable.perform]
          exact List.mem_append_right _ (ends closed)
        · exact settled other found old closed
    next => exact settled
  cases event with
  | deliver delivery =>
      cases step
      exact settled
  | step handler =>
      simp only [TracingHook.next] at step
      split at step
      next =>
        cases step
        unfold TracingHook.startSpan
        split
        next =>
          intro other found written closed
          rcases update_eq_iff.mp written with ⟨_, now⟩ | ⟨_, old⟩
          · cases now
            cases closed
          · exact settled other found old closed
        next => exact settled
      next =>
        cases step
        exact settled
      next =>
        cases step
        unfold TracingHook.lookupExecSpan
        split <;> exact settled
      next =>
        cases step
        exact under fun closes => absurd closes Bool.false_ne_true
      next =>
        cases step
        unfold TracingHook.pop
        split <;> exact settled
      next span writes at_ =>
        cases step
        have quiet := sound.quiet handler
        rw [at_] at quiet
        obtain ⟨body, rfl, _⟩ := quiet
        exact under fun _ => List.mem_append_right _ List.mem_cons_self
      next => cases step

section Runs

variable {tracer : Tracer} {recordOutput : Bool} {state : TracingHook}

theorem Settled.of_reachable (reliable : tracer.Reliable)
    (reachable : (tracingHook tracer recordOutput).Reachable state) : Settled state := by
  have both := @System.Reachable.invariant _ _ (tracingHook tracer recordOutput)
    (fun state => Sound state ∧ Settled state) ⟨Sound.initially, nofun⟩
    (fun holds step => ⟨holds.1.next step, holds.2.next holds.1 reliable step⟩)
    state reachable
  exact both.2

theorem Doomed.ends (reliable : tracer.Reliable)
    (reachable : (tracingHook tracer recordOutput).Reachable state) {span handler : Nat}
    (doomed : Doomed span handler state) :
    (tracingHook tracer recordOutput).Inevitable Event.isStep
      (fun later => ∃ active, later.spans span = some active ∧ active.Ended) state := by
  apply @System.inevitable_of_rank _ _ (tracingHook tracer recordOutput) Event.isStep _
    (fun state => (Sound state ∧ Settled state) ∧ Doomed span handler state)
    TracingHook.remaining
  · intro state holds unended
    obtain ⟨⟨_, settled⟩, active, known, closed | ⟨other, writes, closes⟩ | ⟨_, displaces⟩⟩ :=
      holds
    · exact absurd ⟨active, known, settled span active known closed⟩ unended
    · refine ⟨.step other, rfl, state.next_isSome tracer recordOutput ?_⟩
      rw [closes]
      exact nofun
    · refine ⟨.step handler, rfl, state.next_isSome tracer recordOutput ?_⟩
      intro done
      rw [done] at displaces
      exact Handler.not_displaces_done displaces
  · intro state event after holds own step
    obtain ⟨⟨sound, settled⟩, doomed⟩ := holds
    cases event with
    | deliver => cases own
    | step mover =>
        have step : state.next tracer recordOutput (.step mover) = some after := step
        exact ⟨⟨⟨sound.next step, settled.next sound reliable step⟩,
          doomed.next sound reliable step⟩, state.remaining_lt sound step⟩
  · exact ⟨⟨Sound.of_reachable reachable, Settled.of_reachable reliable reachable⟩, doomed⟩

/-- With no handler in progress, the registry has the spans opened and not yet ended. -/
theorem registered_iff (reliable : tracer.Reliable)
    (reachable : (tracingHook tracer recordOutput).Reachable state)
    (quiet : ∀ handler, state.handlers handler = .done) (span : Nat) :
    (∃ execId, state.activeSpans execId = some span) ↔
      ∃ active, state.spans span = some active ∧ ¬ active.Ended := by
  have sound := Sound.of_reachable reachable
  constructor
  · intro mapped
    obtain ⟨execId, mapped⟩ := mapped
    obtain ⟨active, known, _, opened⟩ := sound.registered execId span mapped
    exact ⟨active, known, (sound.silent span active known).2 opened⟩
  · intro unended
    obtain ⟨active, known, unended⟩ := unended
    have opened : active.isClosed = false := by
      rw [Bool.eq_false_iff]
      intro closed
      exact unended (Settled.of_reachable reliable reachable span active known closed)
    rcases sound.placed span active known opened with mapped | ⟨handler, holds⟩ |
      ⟨handler, writes, holds⟩
    · exact ⟨active.execId, mapped⟩
    · cases (quiet handler).symm.trans holds
    · cases (quiet handler).symm.trans holds

/-- However the handlers interleave, a span is ended once and is not written to after, a
start or settled event after its own start ends it, and the registry has the open spans
when all is quiet. -/
theorem spans_close_once (tracer : Tracer) (recordOutput : Bool) {state : TracingHook}
    (reachable : (tracingHook tracer recordOutput).Reachable state) :
    (∀ span active, state.spans span = some active →
      active.calls.count .end_ ≤ 1 ∧
        ∀ front back, active.calls = front ++ .end_ :: back → back = []) ∧
    (tracer.Reliable →
      (∀ span active, state.spans span = some active →
        (∀ handler, state.handlers handler ≠ .installing active.execId span) →
          ∀ delivery middle, delivery.Closes active.execId →
            state.next tracer recordOutput (.deliver delivery) = some middle →
              ∀ events later,
                (tracingHook tracer recordOutput).exec middle events = some later →
                  (tracingHook tracer recordOutput).Inevitable Event.isStep
                    (fun after => ∃ ended, after.spans span = some ended ∧ ended.Ended)
                    later) ∧
      ((∀ handler, state.handlers handler = .done) →
        ∀ span, (∃ execId, state.activeSpans execId = some span) ↔
          ∃ active, state.spans span = some active ∧ ¬ active.Ended)) := by
  have sound := Sound.of_reachable reachable
  refine ⟨?_, fun reliable => ⟨?_, fun quiet => registered_iff reliable reachable quiet⟩⟩
  · intro span active known
    have silent := sound.silent span active known
    exact ⟨silent.count_le_one, fun front back split => silent.nothing_after split⟩
  · intro span active known installed delivery middle closes step events later runs
    have doomed := Doomed.of_deliver sound known installed closes step
    have both := @System.exec_invariant _ _ (tracingHook tracer recordOutput)
      (fun state => Sound state ∧ Doomed span _ state)
      (fun holds step => ⟨holds.1.next step, holds.2.next holds.1 reliable step⟩)
      _ _ events ⟨sound.next step, doomed⟩ runs
    have delivered : (tracingHook tracer recordOutput).exec state [.deliver delivery] =
        some middle := by
      rw [System.exec_cons]
      exact congrArg (Option.bind · _) step
    have reached := reachable.exec delivered
    exact both.2.ends reliable (reached.exec runs)

/-- An execution is started, and started again under its token. -/
theorem spans_close_once_restarted :
    let tracer : Tracer := ⟨fun _ _ _ => true, fun _ _ _ => true⟩
    let start : Delivery := .exec ⟨.start, "echo", some 7, none, fun _ => none, []⟩
    ∃ state active, (tracingHook tracer true).exec .initial
        [.deliver start, .step 0, .step 0] = some state ∧
      state.spans 0 = some active ∧ active.calls.count .end_ ≤ 1 ∧
      (tracingHook tracer true).Inevitable Event.isStep
        (fun after => ∃ ended, after.spans 0 = some ended ∧ ended.Ended)
        (state.deliver true start) ∧
      ((∃ execId, state.activeSpans execId = some 0) ↔
        ∃ active, state.spans 0 = some active ∧ ¬ active.Ended) := by
  intro tracer start
  have reliable : tracer.Reliable := ⟨fun _ _ _ => rfl, fun _ _ _ => rfl⟩
  have runs : (tracingHook tracer true).exec .initial
      [.deliver start, .step 0, .step 0] = some _ := rfl
  obtain ⟨once, holds⟩ := spans_close_once tracer true ⟨_, runs⟩
  obtain ⟨closed, quiet⟩ := holds reliable
  have finished : ∀ handler, (Option.get _ (Option.isSome_of_eq_some runs)).handlers handler =
      .done := by
    intro handler
    cases handler with
    | zero => rfl
    | succ => rfl
  refine ⟨_, _, runs, rfl, (once 0 _ rfl).1, ?_, quiet finished 0⟩
  apply closed 0 _ rfl ?_ start _ ⟨rfl, .inl rfl⟩ rfl [] _ rfl
  intro handler installs
  cases (finished handler).symm.trans installs

end Runs

end Cuprum.Tracing
