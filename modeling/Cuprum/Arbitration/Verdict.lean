import Cuprum.Arbitration.Settle

namespace Cuprum.Arbitration

open Transition
open Handle (Raised)

variable {Error Value Result Hook : Type}

/-! What a caller is owed once both of its steps have run. -/

def Outcome.isCancelled : Outcome Error Value → Bool
  | .cancelled => true
  | .succeeded _ | .failed _ => false

/-- The event of a stop that produced an outcome, for each of its observers. -/
def Site.owedEvents (site : Site Error Hook) (stop : Outcome Error (StopRecord Hook)) :
    List (Happening Hook) :=
  match site.caller, stop.value with
  | .stop, some (some measurement, outcome) =>
      measurement.hooks.map fun hook =>
        .offered hook (measurement.event site.clock (stopOutcomeFrom (some (some measurement, outcome))))
  | _, _ => []

/-- No observer of a stop's event answers with a coroutine whose close raises. -/
def Site.contains (site : Site Error Hook) (stop : Outcome Error (StopRecord Hook)) : Bool :=
  match site.caller, stop.value with
  | .stop, some (some measurement, outcome) =>
      measurement.hooks.all fun hook =>
        (site.answer hook (measurement.event site.clock
          (stopOutcomeFrom (some (some measurement, outcome))))).isContained
  | _, _ => true

/-- A failure of a step defers to the error a block is left with. -/
def Site.failing (site : Site Error Hook) (error : Error) : Ending Error Result :=
  match site.caller with
  | .stop | .teardown none => .raised (.error error)
  | .teardown (some _) => .left

def Site.owed (site : Site Error Hook) (absorbed : Bool)
    (stop : Outcome Error (StopRecord Hook)) (settle : Outcome Error Result) :
    Ending Error Result :=
  match absorbed, stop, settle with
  | true, _, _ | _, .cancelled, _ | _, _, .cancelled => .raised .cancelled
  | false, .failed error, _ => site.failing error
  | false, .succeeded _, .failed error => site.failing error
  | false, .succeeded _, .succeeded result =>
      match site.caller with
      | .stop => .returned result
      | .teardown _ => .left

/-- The caller took a cancellation while it waited for one of its steps. -/
def State.absorbed (state : State Error Result Hook) : Bool :=
  0 < state.stopTaken || 0 < state.settleTaken

structure Arbitrated (site : Site Error Hook) (state : State Error Result Hook) : Prop where
  unsettled : state.settle = .unstarted → state.trace = []
  observed : state.settle ≠ .unstarted → ∃ stop, state.stop = .done stop ∧
    state.trace = site.owedEvents stop ++ [.settleBegan]
  settled : state.phase ≠ .rereading
  verdict : ∀ ending, state.phase = .finished ending → ∃ stop settle,
    state.stop = .done stop ∧ state.settle = .done settle ∧
      ending = site.owed state.absorbed stop settle

/-! How a step's report comes about. -/

def reportOf (taken : Nat) (outcome : Outcome Error Value) : StepReport Error Value where
  cancellation := 0 < taken || outcome.isCancelled
  failure := if 0 < taken then none else outcome.failure
  value := outcome.value

/-- The loop is left by the failure of the task it waits for. -/
def escapes : Await → StepTask Error Value → Bool
  | .settling, .done (.failed _) => true
  | _, _ => false

theorem resume_cases {interrupted : Bool} {await : Await} {task : StepTask Error Value}
    {resumed : Resumed Error Value} {taken : Nat} (absorbed : await = .settling ↔ 0 < taken)
    (resumes : resume interrupted await task = some resumed) :
    (resumed = .waits ∧ interrupted = true ∧ ∀ outcome, task ≠ .done outcome) ∨
    (∃ outcome, task = .done outcome ∧ (interrupted || !escapes await task) = true ∧
      resumed = .reports (reportOf (taken + interrupted.toNat) outcome)) ∨
    (∃ error, task = .done (.failed error) ∧ (interrupted || !escapes await task) = false ∧
      await = .settling ∧ interrupted = false ∧ resumed = .raises error) := by
  cases interrupted with
  | true =>
      cases task with
      | unstarted =>
          cases resumes
          exact .inl ⟨rfl, rfl, by simp⟩
      | running =>
          cases resumes
          exact .inl ⟨rfl, rfl, by simp⟩
      | done outcome =>
          cases resumes
          refine .inr (.inl ⟨outcome, rfl, rfl, ?_⟩)
          simp [settleShielded, reportOf]
  | false =>
      cases task with
      | unstarted => cases resumes
      | running => cases resumes
      | done outcome =>
          cases outcome with
          | cancelled =>
              cases resumes
              refine .inr (.inl ⟨.cancelled, rfl, by cases await <;> rfl, ?_⟩)
              cases taken <;> rfl
          | succeeded value =>
              cases await with
              | shielded =>
                  have none_ : ¬ 0 < taken := fun pos => by cases absorbed.mpr pos
                  cases resumes
                  refine .inr (.inl ⟨.succeeded value, rfl, rfl, ?_⟩)
                  simp [reportOf, none_, Outcome.isCancelled, Outcome.failure,
                    Outcome.value]
              | settling =>
                  have pos := absorbed.mp rfl
                  cases resumes
                  refine .inr (.inl ⟨.succeeded value, rfl, rfl, ?_⟩)
                  simp [settleShielded, reportOf, pos, Outcome.value]
          | failed error =>
              cases await with
              | shielded =>
                  have none_ : ¬ 0 < taken := fun pos => by cases absorbed.mpr pos
                  cases resumes
                  refine .inr (.inl ⟨.failed error, rfl, rfl, ?_⟩)
                  simp [reportOf, none_, Outcome.isCancelled, Outcome.failure,
                    Outcome.value]
              | settling =>
                  cases resumes
                  exact .inr (.inr ⟨error, rfl, rfl, rfl, rfl, rfl⟩)

variable {site : Site Error Hook} {state after : State Error Result Hook}

theorem completes_raised_iff (taken : Nat) (stop : Outcome Error (StopRecord Hook)) :
    (site.completes (reportOf taken stop)).raised = none ↔ site.contains stop = true := by
  unfold Site.completes Site.contains reportOf
  cases site.caller with
  | teardown pending => exact iff_of_true rfl rfl
  | stop =>
      cases stop with
      | failed error => exact iff_of_true rfl rfl
      | cancelled => exact iff_of_true rfl rfl
      | succeeded record =>
          obtain ⟨measurement, outcome⟩ := record
          cases measurement with
          | none => exact iff_of_true rfl rfl
          | some measurement => exact emitControlEvent_raised_iff _ _ _

theorem completes_happenings {stop : Outcome Error (StopRecord Hook)}
    (contained : site.contains stop = true) (taken : Nat) :
    (site.completes (reportOf taken stop)).happenings = site.owedEvents stop := by
  unfold Site.contains at contained
  unfold Site.completes Site.owedEvents reportOf
  cases caller : site.caller with
  | teardown pending => rfl
  | stop =>
      cases stop with
      | failed error => rfl
      | cancelled => rfl
      | succeeded record =>
          obtain ⟨measurement, outcome⟩ := record
          cases measurement with
          | none => rfl
          | some measurement =>
              simp only [caller, Outcome.value] at contained
              simp only [Outcome.value, completeControl, ControlMeasurement.complete,
                Emission.happenings, emitControlEvent_offered contained, List.map_map]
              rfl

theorem arbitrate_cancelled {stop : StepReport Error Value} {settle : StepReport Error Result}
    (cancelled : (stop.cancellation || settle.cancellation) = true)
    (pending : Option (Raised Error)) : arbitrate stop settle pending = some .cancelled := by
  unfold arbitrate
  rw [if_pos cancelled]

theorem weigh_cancelled {stop : StepReport Error (StopRecord Hook)}
    {settle : StepReport Error Result}
    (cancelled : (stop.cancellation || settle.cancellation) = true) :
    state.weigh site stop settle = .finished (.raised .cancelled) := by
  unfold State.weigh
  cases site.caller <;> simp only [arbitrate_cancelled cancelled]

theorem Site.owed_absorbed (stop : Outcome Error (StopRecord Hook))
    (settle : Outcome Error Result) : site.owed true stop settle = .raised .cancelled := by
  cases stop <;> cases settle <;> rfl

theorem weigh_reportOf {stopTaken settleTaken : Nat} {stop : Outcome Error (StopRecord Hook)}
    {settle : Outcome Error Result} (settled : state.settle = .done settle) :
    state.weigh site (reportOf stopTaken stop) (reportOf settleTaken settle) =
      .finished (site.owed (0 < stopTaken || 0 < settleTaken) stop settle) := by
  by_cases absorbed : (decide (0 < stopTaken) || decide (0 < settleTaken)) = true
  · rw [absorbed, site.owed_absorbed, weigh_cancelled]
    simp only [reportOf, Bool.or_eq_true] at absorbed ⊢
    exact absorbed.imp .inl .inl
  · have none_ := absorbed
    simp only [Bool.or_eq_true, decide_eq_true_eq, not_or] at none_
    rw [Bool.not_eq_true] at absorbed
    rw [absorbed]
    obtain ⟨rfl, rfl⟩ : stopTaken = 0 ∧ settleTaken = 0 := by omega
    unfold State.weigh
    rw [settled]
    cases caller : site.caller with
    | stop =>
        cases stop <;> cases settle <;> simp only [Site.owed, Site.failing, caller] <;> rfl
    | teardown pending =>
        cases pending <;> cases stop <;> cases settle <;>
          simp only [Site.owed, Site.failing, caller] <;> rfl

/-! A caller that has not come to its end. -/

/-- What the call has come to while one of its steps is waited for. -/
def Consistent (site : Site Error Hook) (state : State Error Result Hook) : Prop :=
  match state.phase with
  | .stopping await => state.stop ≠ .unstarted ∧ state.settle = .unstarted ∧
      state.trace = [] ∧ state.settleTaken = 0 ∧ (await = .settling ↔ 0 < state.stopTaken)
  | .settling report await => ∃ stop, state.stop = .done stop ∧
      report = reportOf state.stopTaken stop ∧ state.settle ≠ .unstarted ∧
      state.trace = site.owedEvents stop ++ [.settleBegan] ∧
      (await = .settling ↔ 0 < state.settleTaken)
  | .rereading => False
  | .finished _ => True

def StepTask.outcome : StepTask Error Value → Option (Outcome Error Value)
  | .unstarted | .running => none
  | .done outcome => some outcome

/-- A failed step is met by a caller that has taken no cancellation at it, or has one
more to take, and nothing escapes the emission of a stop's event. -/
def heeds (site : Site Error Hook) (state : State Error Result Hook) :
    Event Error Result Hook → Bool
  | .resume =>
      match state.phase with
      | .stopping await =>
          (state.interrupted || !escapes await state.stop) &&
            state.stop.outcome.all site.contains
      | .settling _ await => state.interrupted || !escapes await state.settle
      | .rereading | .finished _ => true
  | .cancel | .stopEnds _ | .settleEnds _ => true

/-- What a caller's step makes of the state. -/
inductive Resumes (site : Site Error Hook) (state : State Error Result Hook) :
    State Error Result Hook → Prop
  | waitsStop {await : Await} (phase : state.phase = .stopping await)
      (interrupted : state.interrupted = true) (running : ∀ outcome, state.stop ≠ .done outcome) :
      Resumes site state { state with
        phase := .stopping .settling
        interrupted := false
        stopTaken := state.stopTaken + state.interrupted.toNat }
  | stopped {await : Await} (phase : state.phase = .stopping await)
      {stop : Outcome Error (StopRecord Hook)} (done : state.stop = .done stop)
      (heeded : heeds site state .resume = true) :
      Resumes site state { state with
        phase := .settling (reportOf (state.stopTaken + state.interrupted.toNat) stop) .shielded
        settle := .running
        interrupted := false
        stopTaken := state.stopTaken + state.interrupted.toNat
        trace := state.trace ++ site.owedEvents stop ++ [.settleBegan] }
  | observerEscapes {await : Await} (phase : state.phase = .stopping await)
      {stop : Outcome Error (StopRecord Hook)} (done : state.stop = .done stop)
      (uncontained : site.contains stop = false) (error : Raised Error)
      (offers : List (Happening Hook)) :
      Resumes site state { state with
        phase := .finished (.raised error)
        interrupted := false
        stopTaken := state.stopTaken + state.interrupted.toNat
        trace := state.trace ++ offers }
  | stopEscapes (phase : state.phase = .stopping .settling) {error : Error}
      (done : state.stop = .done (.failed error)) (interrupted : state.interrupted = false) :
      Resumes site state { state with
        phase := .finished (.raised (.error error))
        interrupted := false
        stopTaken := state.stopTaken + state.interrupted.toNat }
  | waitsSettle {report : StepReport Error (StopRecord Hook)} {await : Await}
      (phase : state.phase = .settling report await) (interrupted : state.interrupted = true)
      (running : ∀ outcome, state.settle ≠ .done outcome) :
      Resumes site state { state with
        phase := .settling report .settling
        interrupted := false
        settleTaken := state.settleTaken + state.interrupted.toNat }
  | settled {report : StepReport Error (StopRecord Hook)} {await : Await}
      (phase : state.phase = .settling report await) {stop : Outcome Error (StopRecord Hook)}
      (stopped : state.stop = .done stop) {settle : Outcome Error Result}
      (done : state.settle = .done settle) (heeded : heeds site state .resume = true) :
      Resumes site state { state with
        phase := .finished (site.owed
          (0 < state.stopTaken || 0 < state.settleTaken + state.interrupted.toNat) stop settle)
        interrupted := false
        settleTaken := state.settleTaken + state.interrupted.toNat }
  | settleEscapes {report : StepReport Error (StopRecord Hook)}
      (phase : state.phase = .settling report .settling) {error : Error}
      (done : state.settle = .done (.failed error)) (interrupted : state.interrupted = false) :
      Resumes site state { state with
        phase := .finished (.raised (.error error))
        interrupted := false
        settleTaken := state.settleTaken + state.interrupted.toNat }

theorem resumes (consistent : Consistent site state)
    (step : state.resume site = some after) : Resumes site state after := by
  unfold State.resume at step
  cases phase : state.phase with
  | rereading => simp [phase] at step
  | finished ending => simp [phase] at step
  | stopping await =>
      simp only [Consistent, phase] at consistent
      obtain ⟨_, _, _, _, absorbed⟩ := consistent
      simp only [phase, Option.map_eq_some_iff] at step
      obtain ⟨resumed, resumes, same⟩ := step
      rcases resume_cases absorbed resumes with
        ⟨rfl, interrupted, running⟩ | ⟨stop, done, heeded, rfl⟩ |
          ⟨error, done, _, settling, interrupted, rfl⟩
      · subst same
        exact .waitsStop phase interrupted running
      · subst same
        simp only [State.settleAfterStop]
        cases raised : (site.completes
          (reportOf (state.stopTaken + state.interrupted.toNat) stop)).raised with
        | none =>
            have contained := (completes_raised_iff _ stop).mp raised
            simp only [completes_happenings contained]
            refine .stopped phase done ?_
            simpa [heeds, phase, done, contained, StepTask.outcome] using heeded
        | some error =>
            refine .observerEscapes phase done ?_ error _
            rw [Bool.eq_false_iff]
            intro contained
            rw [(completes_raised_iff _ stop).mpr contained] at raised
            cases raised
      · subst same
        subst settling
        exact .stopEscapes phase done interrupted
  | settling report await =>
      simp only [Consistent, phase] at consistent
      obtain ⟨stop, stopped, reported, _, _, absorbed⟩ := consistent
      simp only [phase, Option.map_eq_some_iff] at step
      obtain ⟨resumed, resumes, same⟩ := step
      rcases resume_cases absorbed resumes with
        ⟨rfl, interrupted, running⟩ | ⟨settle, done, heeded, rfl⟩ |
          ⟨error, done, _, settling, interrupted, rfl⟩
      · subst same
        exact .waitsSettle phase interrupted running
      · subst same
        subst reported
        dsimp only
        rw [weigh_reportOf]
        · exact .settled phase stopped done (by simpa [heeds, phase] using heeded)
        · exact done
      · subst same
        subst settling
        exact .settleEscapes phase done interrupted

end Cuprum.Arbitration
