import Cuprum.Arbitration.Verdict

namespace Cuprum.Arbitration

open Transition
open Handle (Raised)

variable {Error Result Hook : Type} {site : Site Error Hook}
  {state after : State Error Result Hook}

/-- The steps of a call, the caller's own among them. -/
inductive Stepped (site : Site Error Hook) (state : State Error Result Hook) :
    Event Error Result Hook → State Error Result Hook → Prop
  | cancel : Stepped site state .cancel { state with interrupted := true }
  | stopEnds (outcome : Outcome Error (StopRecord Hook)) (running : state.stop = .running) :
      Stepped site state (.stopEnds outcome) { state with stop := .done outcome }
  | settleEnds (outcome : Outcome Error Result) (running : state.settle = .running) :
      Stepped site state (.settleEnds outcome) { state with settle := .done outcome }
  | resume {after : State Error Result Hook} (resumes : Resumes site state after) :
      Stepped site state .resume after

theorem stepped (consistent : Consistent site state) {event : Event Error Result Hook}
    (step : (stopThenSettle site).next state event = some after) :
    Stepped site state event after := by
  cases event with
  | cancel =>
      simp only [stopThenSettle] at step
      split at step
      · cases step
        exact .cancel
      · cases step
        exact .cancel
      · cases step
      · cases step
  | stopEnds outcome =>
      cases running : state.stop with
      | running =>
          simp only [stopThenSettle, running, Option.some.injEq] at step
          subst step
          exact .stopEnds outcome running
      | unstarted => simp [stopThenSettle, running] at step
      | done other => simp [stopThenSettle, running] at step
  | settleEnds outcome =>
      cases running : state.settle with
      | running =>
          simp only [stopThenSettle, running, Option.some.injEq] at step
          subst step
          exact .settleEnds outcome running
      | unstarted => simp [stopThenSettle, running] at step
      | done other => simp [stopThenSettle, running] at step
  | resume => exact .resume (resumes consistent step)

theorem Consistent.initial :
    Consistent site (stopThenSettle site : System (State Error Result Hook) _).initial := by
  simp [Consistent, stopThenSettle]

theorem Consistent.next (consistent : Consistent site state) {event : Event Error Result Hook}
    (step : (stopThenSettle site).next state event = some after) : Consistent site after := by
  cases stepped consistent step with
  | cancel => exact consistent
  | stopEnds outcome running =>
      unfold Consistent at consistent ⊢
      cases phase : state.phase with
      | stopping await =>
          simp only [phase] at consistent
          exact ⟨by simp, consistent.2⟩
      | settling report await =>
          simp only [phase] at consistent
          obtain ⟨stop, stopped, _⟩ := consistent
          rw [running] at stopped
          cases stopped
      | rereading => simp [phase] at consistent
      | finished ending => trivial
  | settleEnds outcome running =>
      unfold Consistent at consistent ⊢
      cases phase : state.phase with
      | stopping await =>
          simp only [phase] at consistent
          rw [consistent.2.1] at running
          cases running
      | settling report await =>
          simp only [phase] at consistent ⊢
          obtain ⟨stop, stopped, reported, _, rest⟩ := consistent
          exact ⟨stop, stopped, reported, by simp, rest⟩
      | rereading => simp [phase] at consistent
      | finished ending => trivial
  | resume resumes =>
      cases resumes with
      | waitsStop phase interrupted running =>
          simp only [Consistent, phase] at consistent
          obtain ⟨begun, unsettled, traced, untaken, _⟩ := consistent
          exact ⟨begun, unsettled, traced, untaken, by simp [interrupted]⟩
      | stopped phase done heeded =>
          simp only [Consistent, phase] at consistent
          simp [Consistent, consistent.2.2.1, consistent.2.2.2.1, done]
      | observerEscapes phase done uncontained error offers => trivial
      | stopEscapes phase done interrupted => trivial
      | waitsSettle phase interrupted running =>
          simp only [Consistent, phase] at consistent
          obtain ⟨stop, stopped, reported, begun, traced, _⟩ := consistent
          exact ⟨stop, stopped, reported, begun, traced, by simp [interrupted]⟩
      | settled phase stopped done heeded => trivial
      | settleEscapes phase done interrupted => trivial

/-! What a step keeps of the arbitration. -/

namespace Arbitrated

theorem initial :
    Arbitrated site (stopThenSettle site : System (State Error Result Hook) _).initial where
  unsettled := fun _ => rfl
  observed := fun begun => absurd rfl begun
  settled := by simp [stopThenSettle]
  verdict := by simp [stopThenSettle]

theorem stopEnds (holds : Arbitrated site state) (running : state.stop = .running)
    (outcome : Outcome Error (StopRecord Hook)) :
    Arbitrated site { state with stop := .done outcome } where
  unsettled := holds.unsettled
  observed := by
    intro begun
    obtain ⟨stop, stopped, _⟩ := holds.observed begun
    rw [running] at stopped
    cases stopped
  settled := holds.settled
  verdict := by
    intro ending finished
    obtain ⟨stop, settle, stopped, _⟩ := holds.verdict ending finished
    rw [running] at stopped
    cases stopped

theorem settleEnds (holds : Arbitrated site state) (running : state.settle = .running)
    (outcome : Outcome Error Result) :
    Arbitrated site { state with settle := .done outcome } where
  unsettled := by simp
  observed := fun _ => holds.observed (by simp [running])
  settled := holds.settled
  verdict := by
    intro ending finished
    obtain ⟨stop, settle, _, settled, _⟩ := holds.verdict ending finished
    rw [running] at settled
    cases settled

/-- A caller's step keeps the arbitration exactly if it heeds the step it waits for. -/
theorem resume_iff (consistent : Consistent site state) (holds : Arbitrated site state)
    (resumes : Resumes site state after) :
    heeds site state .resume = true ↔ Arbitrated site after := by
  cases resumes with
  | waitsStop phase interrupted running =>
      have unfinished : state.stop.outcome = none := by
        cases stop : state.stop with
        | unstarted => rfl
        | running => rfl
        | done outcome => exact absurd stop (running outcome)
      refine iff_of_true (by simp [heeds, phase, interrupted, unfinished]) ?_
      exact ⟨holds.unsettled, holds.observed, by simp, by simp⟩
  | waitsSettle phase interrupted running =>
      refine iff_of_true (by simp [heeds, phase, interrupted]) ?_
      exact ⟨holds.unsettled, holds.observed, by simp, by simp⟩
  | @stopped await phase stop done heeded =>
      refine iff_of_true heeded ⟨by simp, fun _ => ⟨stop, done, ?_⟩, by simp, by simp⟩
      simp only [Consistent, phase] at consistent
      simp [consistent.2.2.1]
  | settled phase stopped done heeded =>
      refine iff_of_true heeded ⟨holds.unsettled, holds.observed, by simp, ?_⟩
      intro ending finished
      exact ⟨_, _, stopped, done, (Phase.finished.inj finished).symm⟩
  | observerEscapes phase done uncontained error offers =>
      apply iff_of_false
      · simp [heeds, phase, done, StepTask.outcome, uncontained]
      · intro arbitrated
        obtain ⟨_, settle, _, settled, _⟩ := arbitrated.verdict _ rfl
        simp only [Consistent, phase] at consistent
        have unsettled : state.settle = .done settle := settled
        rw [consistent.2.1] at unsettled
        cases unsettled
  | stopEscapes phase done interrupted =>
      apply iff_of_false
      · simp [heeds, interrupted, phase, done, escapes]
      · intro arbitrated
        obtain ⟨_, settle, _, settled, _⟩ := arbitrated.verdict _ rfl
        simp only [Consistent, phase] at consistent
        have unsettled : state.settle = .done settle := settled
        rw [consistent.2.1] at unsettled
        cases unsettled
  | settleEscapes phase done interrupted =>
      apply iff_of_false
      · simp [heeds, interrupted, phase, done, escapes]
      · intro arbitrated
        obtain ⟨stop, settle, _, _, ending⟩ := arbitrated.verdict _ rfl
        simp only [Consistent, phase] at consistent
        obtain ⟨_, _, _, _, _, absorbed⟩ := consistent
        have taken : 0 < state.settleTaken := by simpa using absorbed
        simp [State.absorbed, interrupted, taken, Site.owed_absorbed] at ending

theorem next_iff (consistent : Consistent site state) (holds : Arbitrated site state)
    {event : Event Error Result Hook}
    (step : (stopThenSettle site).next state event = some after) :
    heeds site state event = true ↔ Arbitrated site after := by
  cases stepped consistent step with
  | cancel =>
      exact iff_of_true rfl ⟨holds.unsettled, holds.observed, holds.settled, holds.verdict⟩
  | stopEnds outcome running => exact iff_of_true rfl (holds.stopEnds running outcome)
  | settleEnds outcome running => exact iff_of_true rfl (holds.settleEnds running outcome)
  | resume resumes => exact holds.resume_iff consistent resumes

end Arbitrated

/-! The call comes to its end. -/

def isOwn : Event Error Result Hook → Bool
  | .cancel => false
  | .stopEnds _ | .settleEnds _ | .resume => true

def StepTask.left {Value : Type} : StepTask Error Value → Nat
  | .unstarted | .running => 1
  | .done _ => 0

def Phase.left : Phase Error Result Hook → Nat
  | .stopping _ => 2
  | .settling _ _ => 1
  | .rereading | .finished _ => 0

def State.left (state : State Error Result Hook) : Nat :=
  state.phase.left + state.stop.left + state.settle.left + state.interrupted.toNat

theorem Consistent.progress (consistent : Consistent site state)
    (unfinished : ¬ ∃ ending, state.phase = .finished ending) :
    ∃ event, isOwn event = true ∧ ((stopThenSettle site).next state event).isSome = true := by
  unfold Consistent at consistent
  cases phase : state.phase with
  | rereading => simp [phase] at consistent
  | finished ending => exact absurd ⟨ending, phase⟩ unfinished
  | stopping await =>
      simp only [phase] at consistent
      cases task : state.stop with
      | unstarted => exact absurd task consistent.1
      | running => exact ⟨.stopEnds .cancelled, rfl, by simp [stopThenSettle, task]⟩
      | done outcome =>
          refine ⟨.resume, rfl, ?_⟩
          simp only [stopThenSettle, State.resume, phase, task, Option.isSome_map]
          cases state.interrupted <;> cases outcome <;> cases await <;> rfl
  | settling report await =>
      simp only [phase] at consistent
      obtain ⟨_, _, _, begun, _⟩ := consistent
      cases task : state.settle with
      | unstarted => exact absurd task begun
      | running => exact ⟨.settleEnds .cancelled, rfl, by simp [stopThenSettle, task]⟩
      | done outcome =>
          refine ⟨.resume, rfl, ?_⟩
          simp only [stopThenSettle, State.resume, phase, task, Option.isSome_map]
          cases state.interrupted <;> cases outcome <;> cases await <;> rfl

theorem Consistent.lowers (consistent : Consistent site state)
    {event : Event Error Result Hook} (own : isOwn event = true)
    (step : (stopThenSettle site).next state event = some after) : after.left < state.left := by
  cases stepped consistent step with
  | cancel => cases own
  | stopEnds outcome running => simp [State.left, running, StepTask.left]
  | settleEnds outcome running => simp [State.left, running, StepTask.left]
  | resume resumes =>
      cases resumes with
      | waitsStop phase interrupted running => simp [State.left, phase, interrupted, Phase.left]
      | waitsSettle phase interrupted running => simp [State.left, phase, interrupted, Phase.left]
      | stopped phase done heeded =>
          simp only [Consistent, phase] at consistent
          simp only [State.left, phase, consistent.2.1, Phase.left, StepTask.left]
          simp
          omega
      | observerEscapes phase done uncontained error offers =>
          simp only [State.left, phase, Phase.left]
          simp
          omega
      | stopEscapes phase done interrupted =>
          simp only [State.left, phase, Phase.left]
          simp
          omega
      | settled phase stopped done heeded =>
          simp only [State.left, phase, Phase.left]
          simp
          omega
      | settleEscapes phase done interrupted =>
          simp only [State.left, phase, Phase.left]
          simp
          omega

theorem call_ends (consistent : Consistent site state) :
    (stopThenSettle site).Inevitable isOwn (fun after => ∃ ending, after.phase = .finished ending)
      state := by
  apply @System.inevitable_of_rank _ _ (stopThenSettle site) isOwn
    (fun after => ∃ ending, after.phase = .finished ending) (Consistent site) State.left
  · exact fun consistent unfinished => consistent.progress unfinished
  · exact fun consistent own step => ⟨consistent.next step, consistent.lowers own step⟩
  · exact consistent

/-- What leaves an `async with` block that was left with an error. -/
theorem Arbitrated.block (holds : Arbitrated site state) {pending : Raised Error}
    (caller : site.caller = .teardown (some pending)) {ending : Ending Error Result}
    (finished : state.phase = .finished ending) : ending = .left ∨ ending = .raised .cancelled := by
  obtain ⟨stop, settle, _, _, rfl⟩ := holds.verdict ending finished
  cases state.absorbed <;> cases stop <;> cases settle <;>
    simp [Site.owed, Site.failing, caller]

/-- Both steps run in their order and the caller is told what it is owed, in exactly the
runs in which no step fails upon a caller that has taken a cancellation at it and has no
further one to take, and no observer of the stop answers with a coroutine whose close
raises. -/
theorem stop_then_settle_iff (site : Site Error Hook)
    {events : List (Event Error Result Hook)} {state : State Error Result Hook}
    (runs : (stopThenSettle site).exec (stopThenSettle site).initial events = some state) :
    ((∀ front back middle, events = front ++ back →
      (stopThenSettle site).exec (stopThenSettle site).initial front = some middle →
        Arbitrated site middle ∧ ∀ pending ending,
          site.caller = .teardown (some pending) → middle.phase = .finished ending →
            ending = .left ∨ ending = .raised .cancelled) ↔
      ((stopThenSettle site).guarded (heeds site)).exec (stopThenSettle site).initial events =
        some state) ∧
      (stopThenSettle site).Inevitable isOwn
        (fun after => ∃ ending, after.phase = .finished ending) state := by
  have throughout {front : List (Event Error Result Hook)} {middle : State Error Result Hook}
      (reached : (stopThenSettle site).exec (stopThenSettle site).initial front = some middle) :
      Consistent site middle :=
    System.exec_invariant _ (fun consistent step => consistent.next step) .initial reached
  refine ⟨?_, call_ends (throughout runs)⟩
  have exact_ := @System.exec_guarded_iff _ _ (stopThenSettle site) (heeds site)
    (fun middle => Consistent site middle ∧ Arbitrated site middle)
    (fun holds step =>
      ⟨fun heeded => ⟨holds.1.next step, (holds.2.next_iff holds.1 step).mp heeded⟩,
        fun after => (holds.2.next_iff holds.1 step).mpr after.2⟩)
    _ _ events ⟨.initial, .initial⟩ runs
  rw [← exact_]
  constructor
  · intro arbitrated front back middle split reached
    exact ⟨throughout reached, (arbitrated front back middle split reached).1⟩
  · intro both front back middle split reached
    have holds := (both front back middle split reached).2
    exact ⟨holds, fun pending ending caller finished => holds.block caller finished⟩

/-- A stop that delivers, to a caller cancelled meanwhile, before observers that raise. -/
def observedSite : Site Nat Nat where
  caller := .stop
  answer := fun _ _ => .raised "ValueError"
  clock := 9

def deliveringMeasurement : ControlMeasurement Nat where
  operation := .terminate
  hooks := [1, 2]
  started := 4
  target := {}

def deliveringStop : Outcome Nat (StopRecord Nat) :=
  .succeeded (some deliveringMeasurement, ⟨true, false, true, false⟩)

def deliveringEvents : List (Event Nat Nat Nat) :=
  [.cancel, .resume, .stopEnds deliveringStop, .cancel, .resume, .settleEnds (.succeeded 7),
    .resume]

def deliveringEnd : State Nat Nat Nat where
  phase := .finished (.raised .cancelled)
  stop := .done deliveringStop
  settle := .done (.succeeded 7)
  stopTaken := 2
  trace :=
    [.offered 1 (deliveringMeasurement.event 9 .delivered),
      .offered 2 (deliveringMeasurement.event 9 .delivered), .settleBegan]

theorem stop_then_settle_iff_delivering : Arbitrated observedSite deliveringEnd := by
  have runs : (stopThenSettle observedSite).exec (stopThenSettle observedSite).initial
      deliveringEvents = some deliveringEnd := rfl
  have heeded : ((stopThenSettle observedSite).guarded (heeds observedSite)).exec
      (stopThenSettle observedSite).initial deliveringEvents = some deliveringEnd := rfl
  exact ((stop_then_settle_iff observedSite runs).1.mpr heeded deliveringEvents []
    deliveringEnd rfl runs).1

/-- A stop that fails once its caller's cancellation is absorbed: its error is raised in
place of the cancellation, and the settle is never begun. -/
theorem failed_stop_abandons_settle :
    ∃ state : State Nat Nat Nat,
      (stopThenSettle observedSite).exec (stopThenSettle observedSite).initial
        [.cancel, .resume, .stopEnds (.failed 1), .resume] = some state ∧
      state.phase = .finished (.raised (.error 1)) ∧ state.stopTaken = 1 ∧
      state.settle = .unstarted ∧ ¬ Arbitrated observedSite state := by
  refine ⟨_, rfl, rfl, rfl, rfl, ?_⟩
  intro arbitrated
  obtain ⟨_, _, _, settled, _⟩ := arbitrated.verdict _ rfl
  cases settled

end Cuprum.Arbitration
