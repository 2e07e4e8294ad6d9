import Mathlib.Order.Basic
import Cuprum.Handle.Settlement

namespace Cuprum.Handle

variable {δ ε ρ η : Type}

/-- What a caller's step does to the settlement and to the caller's own phase. -/
inductive Acts [OfNat δ 0] [LE δ] [LT δ] [DecidableLE δ] [DecidableLT δ]
    [DecidableEq ε] (run : HandleRun δ ε η) (caller : Nat) (shared : Shared δ ε ρ η) :
    Phase δ ε ρ → Shared δ ε ρ η → Phase δ ε ρ → Prop
  | waits (timeout : Option δ) :
      Acts run caller shared .absent shared (outcome (defaultDeadline run timeout))
  | kills :
      Acts run caller shared .absent (shared.beginStop caller)
        (.stopping (.stopStep .kill) false)
  | queues (stopper : Stopper) :
      Acts run caller shared .absent shared (.stopQueued (.stopStep stopper) false)
  | reads (watcher : Watcher δ ε) (settled : ρ) (result : shared.result = some settled) :
      Acts run caller shared (.entering watcher) shared (watcher.resume settled)
  | drives (watcher : Watcher δ ε) (result : shared.result = none) :
      Acts run caller shared (.entering watcher) shared.ensureTask.2
        (.awaiting watcher shared.ensureTask.1)
  | answered (watcher : Watcher δ ε) (settling : Nat) (awaited : ρ)
      (finished : shared.settlements settling = .finished (.ok awaited)) :
      Acts run caller shared (.awaiting watcher settling) shared
        (.recording watcher awaited)
  | fails (watcher : Watcher δ ε) (settling : Nat) (error : Raised ε)
      (finished : shared.settlements settling = .finished (.error error)) :
      Acts run caller shared (.awaiting watcher settling) shared
        (watcher.fail run.isTimeoutError error)
  | records (watcher : Watcher δ ε) (awaited : ρ) :
      Acts run caller shared (.recording watcher awaited) (shared.record awaited)
        (watcher.resume awaited)
  | spared (deadline : δ) (settled : ρ) (result : shared.result = some settled)
      (alive : exitedFirst run shared deadline = false) :
      Acts run caller shared (.expiring deadline) shared (.done (.returned settled))
  | sparedExited (deadline : δ) (settled : ρ) (result : shared.result = some settled)
      (exited : exitedFirst run shared deadline = true) :
      Acts run caller shared (.expiring deadline) (shared.noteExited caller)
        (.done (.returned settled))
  | findsExited (deadline : δ) (result : shared.result = none)
      (exited : exitedFirst run shared deadline = true) :
      Acts run caller shared (.expiring deadline) (shared.noteExited caller).ensureTask.2
        (.entering (.direct none))
  | expires (deadline : δ) (result : shared.result = none)
      (alive : exitedFirst run shared deadline = false) :
      Acts run caller shared (.expiring deadline)
        (shared.recordDeadline caller deadline).ensureTask.2
        (.stopQueued
          (.expiry deadline (shared.recordDeadline caller deadline).ensureTask.1) false)
  | stops (stop : Stop δ) (callerCancelled : Bool) (free : shared.stopHolder = none) :
      Acts run caller shared (.stopQueued stop callerCancelled)
        (shared.acquireStop caller) (.stopping stop callerCancelled)
  | stopped (stop : Stop δ) (callerCancelled : Bool) (raised : Option (Raised ε)) :
      Acts run caller shared (.stopping stop callerCancelled)
        (shared.releaseStop caller) (stop.finish callerCancelled raised)
  | stopEscapes (stop : Stop δ) (error : ε) :
      Acts run caller shared (.stopping stop true)
        (shared.releaseStop caller) (.done (.raised (.error error)))
  | settleEscapes (stopper : Stopper) (stop : StepReport ε) (settling : Nat) (error : ε)
      (finished : shared.settlements settling = .finished (.error (.error error))) :
      Acts run caller shared (.awaiting (.settleStep stopper stop true) settling)
        shared (.done (.raised (.error error)))
  | reaps (deadline : δ) (settling : Nat) (result : ρ)
      (finished : shared.settlements settling = .finished (.ok result)) :
      Acts run caller shared (.reaping deadline settling) shared
        (.reaped deadline result)
  | reapFails (deadline : δ) (settling : Nat) (error : Raised ε)
      (finished : shared.settlements settling = .finished (.error error)) :
      Acts run caller shared (.reaping deadline settling) shared
        (.done (.raised error))
  | tells (deadline : δ) (result : ρ) :
      Acts run caller shared (.reaped deadline result) (shared.record result)
        (.done (.timeoutExpired deadline result))
  | clock (phase : Phase δ ε ρ) (deadline : δ) (running : phase.clock = some deadline) :
      Acts run caller shared phase shared (.expiring deadline)
  | cancel (phase after : Phase δ ε ρ) (cancelled : phase.cancel = some after) :
      Acts run caller shared phase shared after

/-- Every await of the settlement task stands behind a shield. -/
theorem Phase.awaits_cancels (phase : Phase δ ε ρ) : phase.awaits.cancels = none := by
  cases phase with
  | absent | expiring | reaping | reaped | done => rfl
  | entering watcher | recording watcher =>
      cases watcher with
      | direct => rfl
      | settleStep => rfl
  | awaiting watcher =>
      cases watcher with
      | direct => rfl
      | settleStep => rfl
  | stopping stop => rfl
  | stopQueued stop =>
      cases stop with
      | expiry => rfl
      | stopStep => rfl

section Inversion

variable [OfNat δ 0] [LE δ] [LT δ] [DecidableLE δ] [DecidableLT δ] [DecidableEq ε]
  {run : HandleRun δ ε η} {caller : Nat} {shared shared' : Shared δ ε ρ η}
  {phase phase' : Phase δ ε ρ}

theorem acts_of_expire {deadline : δ}
    (step : expire run caller shared deadline = (shared', phase')) :
    Acts run caller shared (.expiring deadline) shared' phase' := by
  cases exited : exitedFirst run shared deadline with
  | false =>
      cases result : shared.result with
      | some settled =>
          simp only [expire, exited, result] at step
          cases step
          exact .spared deadline settled result exited
      | none =>
          simp only [expire, exited, result] at step
          cases step
          exact .expires deadline result exited
  | true =>
      cases result : shared.result with
      | some settled =>
          simp only [expire, exited, result] at step
          cases step
          exact .sparedExited deadline settled result exited
      | none =>
          simp only [expire, exited, result] at step
          cases step
          exact .findsExited deadline result exited

theorem acts_of_proceed
    (step : proceed run caller shared phase = some (shared', phase')) :
    Acts run caller shared phase shared' phase' := by
  cases phase with
  | absent | stopping | done => cases step
  | entering watcher =>
      cases result : shared.result with
      | some settled =>
          simp only [proceed, result, Option.some.injEq, Prod.mk.injEq] at step
          obtain ⟨rfl, rfl⟩ := step
          exact .reads watcher settled result
      | none =>
          simp only [proceed, result, Option.some.injEq, Prod.mk.injEq] at step
          obtain ⟨rfl, rfl⟩ := step
          exact .drives watcher result
  | awaiting watcher settling =>
      simp only [proceed] at step
      split at step
      case h_1 awaited finished =>
        cases step
        exact .answered watcher settling awaited finished
      case h_2 error finished =>
        cases step
        exact .fails watcher settling error finished
      case h_3 => cases step
  | recording watcher awaited =>
      cases step
      exact .records watcher awaited
  | expiring deadline =>
      exact acts_of_expire (Option.some.inj step)
  | stopQueued stop callerCancelled =>
      cases free : shared.stopHolder with
      | some holder => simp [proceed, free] at step
      | none =>
          simp only [proceed, free, Option.some.injEq, Prod.mk.injEq] at step
          obtain ⟨rfl, rfl⟩ := step
          exact .stops stop callerCancelled free
  | reaping deadline settling =>
      simp only [proceed] at step
      split at step
      case h_1 result finished =>
        cases step
        exact .reaps deadline settling result finished
      case h_2 error finished =>
        cases step
        exact .reapFails deadline settling error finished
      case h_3 => cases step
  | reaped deadline result =>
      cases step
      exact .tells deadline result

theorem acts_of_call {operation : Operation δ}
    (step : begin run caller shared operation = (shared', phase')) :
    Acts run caller shared .absent shared' phase' := by
  cases operation with
  | wait timeout =>
      cases step
      exact .waits timeout
  | stop stopper =>
      cases stopper with
      | kill =>
          cases step
          exact .kills
      | terminate =>
          cases step
          exact .queues .terminate
      | exit pending =>
          cases step
          exact .queues (.exit pending)

theorem acts_of_act {action : Action δ ε}
    (step : act run caller shared phase action = some (shared', phase')) :
    Acts run caller shared phase shared' phase' := by
  cases action with
  | call operation =>
      cases phase with
      | absent => exact acts_of_call (Option.some.inj step)
      | entering | awaiting | recording | expiring | stopQueued | stopping | reaping
      | reaped | done => cases step
  | proceed => exact acts_of_proceed step
  | stopped raised =>
      cases phase with
      | stopping stop callerCancelled =>
          cases step
          exact .stopped stop callerCancelled raised
      | absent | entering | awaiting | recording | expiring | stopQueued | reaping
      | reaped | done => cases step
  | stopEscapes error =>
      simp only [act] at step
      split at step
      case h_1 stop =>
        cases step
        exact .stopEscapes stop error
      case h_2 => cases step
  | settleEscapes =>
      simp only [act] at step
      split at step
      case h_1 stopper stop settling =>
        split at step
        case h_1 error finished =>
          cases step
          exact .settleEscapes stopper stop settling error finished
        case h_2 => cases step
      case h_2 => cases step
  | clock =>
      obtain ⟨deadline, running, moved⟩ := Option.map_eq_some_iff.mp step
      rw [Phase.awaits_cancels] at moved
      cases moved
      exact .clock phase deadline running
  | cancel =>
      obtain ⟨after, cancelled, moved⟩ := Option.map_eq_some_iff.mp step
      rw [Phase.awaits_cancels] at moved
      cases moved
      exact .cancel phase phase' cancelled

end Inversion

end Cuprum.Handle
