import Cuprum.NativePump.Lifecycle

namespace Cuprum.NativePump

open Cuprum.Effect
open Cuprum.Transition

def Job.finished : Job → Bool
  | completed | signalled => true
  | _ => false

/-- What has been closed by the time the job stands where it does. -/
def Job.closings : Job → List (Descriptor × Closer)
  | absent | queued | pumping => []
  | returned _ | published _ => [(.nativeWriter, .job)]
  | completed | signalled =>
      [(.nativeWriter, .job), (.nativeReader, .callback)] ++ stateClosings .callback

theorem Job.eq_published {job : Job} {failed : Bool} (published : job.failed? = some failed) :
    job = .published failed := by
  cases job with
  | published done => exact congrArg Job.published (Option.some.inj published)
  | absent | queued | pumping | returned _ | completed | signalled => cases published

def winnersAt (deferred completed : Bool) : List CleanupWinner :=
  if deferred then [.deferral] else if completed then [.completion] else []

/-- What the start hands to an accepted job. -/
def Config.held (config : Config) : RustPumpState :=
  ⟨⟨config.modes.reader, config.modes.writer⟩, config.paused, config.paused⟩

/-- A hop whose job the executor has accepted. -/
structure State.Underway (config : Config) (state : State) : Prop where
  submitted : state.hop.submitted = true
  engaged : state.hop.engaged = true
  started : state.task ≠ .handingOff
  accepted : state.job ≠ .absent
  held : state.held = some config.held
  opened : state.hop.opened = [.stateReader, .stateWriter, .nativeReader, .nativeWriter]
  closed : state.hop.closed = state.job.closings
  io : state.hop.io = .running ↔ state.job = .pumping
  completed : state.hop.cleanupCompleted = state.job.finished
  restorations : if state.job.finished then
      ∃ phase, phase ≠ .running ∧ state.hop.restorations = [phase]
    else state.hop.restorations = [] ∧ state.hop.refusals = []
  original : state.job.finished = true → state.hop.refusals = [] →
    state.hop.modes = config.modes
  winners : state.hop.winners = winnersAt state.hop.wasDeferred state.job.finished
  pausable : state.hop.transport = .paused → config.paused = true
  resumed : state.cleanupDone = true → state.hop.transport ≠ .paused
  deferred : state.hop.wasDeferred = true →
    state.task = .releasing ∨ state.task = .ended ∧ state.hop.transport ≠ .paused
  signalled : state.job = .signalled →
    state.scheduled = true ∨ state.cleanupDone = true ∨ state.loopClosed = true
  loop : state.loopClosed = true →
    state.task = .ended ∧ (state.cleanupDone = true ∨ state.hop.wasDeferred = true)

/-- A hop that ended in its hand-off. -/
structure State.Abandoned (config : Config) (state : State) : Prop where
  ended : state.task = .ended
  absent : state.job = .absent
  released : state.held = none
  undone : state.hop.Undone config.modes

inductive State.Sound (config : Config) : State → Prop
  | fresh : Sound config { hop := .fresh config.paused config.modes }
  | abandoned {state : State} (abandoned : state.Abandoned config) : Sound config state
  | underway {state : State} (underway : state.Underway config) : Sound config state

variable {config : Config} {state after : State}

theorem paused_of_fresh {paused : Bool} {modes : BlockingModes}
    (transport : (Hop.fresh paused modes).transport = .paused) : paused = true := by
  cases paused with
  | false => cases transport
  | true => rfl

theorem handOff_sound {faults : Faults} (foreseen : faults.foreseen = true) :
    State.Sound config
      (State.handOff { hop := .fresh config.paused config.modes } config faults) := by
  have ends := pumpOverRawFds_ends config.paused config.modes foreseen
  unfold Ends at ends
  unfold State.handOff
  cases ran : pumpOverRawFds faults config.paused config.paused
      (.fresh config.paused config.modes) with
  | error error hop =>
      rw [ran] at ends
      exact .abandoned ⟨rfl, rfl, rfl, ends⟩
  | ok started hop =>
      rw [ran] at ends
      cases started with
      | none => exact .abandoned ⟨rfl, rfl, rfl, ends⟩
      | some held =>
          obtain ⟨rfl, sent, transport⟩ := ends
          apply State.Sound.underway
          exact {
            submitted := sent.submitted
            engaged := sent.engaged
            started := PumpTask.noConfusion
            accepted := Job.noConfusion
            held := rfl
            opened := sent.opened
            closed := sent.closed
            io := by simp [sent.io]
            completed := sent.uncompleted
            restorations := ⟨sent.unrestored, sent.unrefused⟩
            original := nofun
            winners := by
              rw [sent.undecided, sent.uncancelled]
              rfl
            pausable := by
              intro pausedReader
              rw [transport] at pausedReader
              exact paused_of_fresh pausedReader
            resumed := fun done => nomatch done
            deferred := fun deferred =>
              absurd (sent.uncancelled.symm.trans deferred) Bool.noConfusion
            signalled := fun signalled => nomatch signalled
            loop := fun closed => nomatch closed }

namespace State.Underway

/-- Until the pump's task is releasing the reader or has ended, no cleanup is
deferred and the loop is open. -/
theorem open_of_active (underway : state.Underway config)
    (holding : state.task ≠ .releasing) (active : state.task ≠ .ended) :
    state.hop.wasDeferred = false ∧ state.loopClosed = false := by
  constructor
  · cases deferred : state.hop.wasDeferred with
    | false => rfl
    | true =>
        rcases underway.deferred deferred with releasing | ended
        · exact absurd releasing holding
        · exact absurd ended.1 active
  · cases closed : state.loopClosed with
    | false => rfl
    | true => exact absurd (underway.loop closed).1 active

/-- The pump's task moves on, with the marks that no other step reads. -/
theorem retask (underway : state.Underway config) (task : PumpTask)
    (registered inline retained wasCancelled : Bool)
    (outcomes : List RustPumpHandoffOutcome) (started : task ≠ .handingOff)
    (holding : state.task ≠ .releasing) (active : state.task ≠ .ended) :
    State.Underway config { state with
      task := task
      registered := registered
      inline := inline
      hop := { state.hop with
        retained := retained
        wasCancelled := wasCancelled
        handoffOutcomes := outcomes } } := by
  have quiet := underway.open_of_active holding active
  exact { underway with
    started := started
    deferred := fun deferred => absurd (quiet.1.symm.trans deferred) Bool.noConfusion
    loop := fun closed => absurd (quiet.2.symm.trans closed) Bool.noConfusion }

theorem graceExpires (underway : state.Underway config) (stage : state.task = .settling) :
    state.graceExpires.Underway config := by
  unfold State.graceExpires
  split
  · exact underway.retask .ended _ _ _ _ _ PumpTask.noConfusion (by simp [stage])
      (by simp [stage])
  · rename_i uncompleted
    have quiet := underway.open_of_active (by simp [stage]) (by simp [stage])
    have unfinished : state.job.finished = false := by
      rw [← underway.completed]
      exact Bool.eq_false_iff.mpr uncompleted
    exact { underway with
      started := PumpTask.noConfusion
      winners := by
        change state.hop.winners ++ [.deferral] = winnersAt true state.job.finished
        rw [underway.winners, quiet.1, unfinished]
        rfl
      deferred := fun _ => Or.inl rfl
      loop := fun closed => absurd (quiet.2.symm.trans closed) Bool.noConfusion }

theorem release (underway : state.Underway config) (stage : state.task = .releasing) :
    (state.release config.held).Underway config := by
  have flowing : (if config.paused then Transport.closed else state.hop.transport) ≠
      .paused := by
    split
    · exact Transport.noConfusion
    · rename_i unpaused
      exact fun paused => unpaused (underway.pausable paused)
  exact { underway with
    started := PumpTask.noConfusion
    pausable := fun paused => absurd paused flowing
    resumed := fun _ => flowing
    deferred := fun _ => Or.inr ⟨rfl, flowing⟩
    loop := by
      intro closed
      have ended := (underway.loop closed).1
      rw [stage] at ended
      cases ended }

theorem closeLoop (underway : state.Underway config) (stage : state.task = .ended)
    (settled : state.cleanupDone = true ∨ state.hop.wasDeferred = true) :
    State.Underway config { state with loopClosed := true } :=
  { underway with
    signalled := fun _ => Or.inr (Or.inr rfl)
    loop := fun _ => ⟨stage, settled⟩ }

theorem resume (underway : state.Underway config) :
    (state.resume config.held).Underway config := by
  have flowing : state.hop.transport.handedBack config.paused ≠ .paused := by
    cases transport : state.hop.transport with
    | paused =>
        rw [underway.pausable transport]
        exact Transport.noConfusion
    | flowing | closed => cases config.paused <;> exact Transport.noConfusion
  exact { underway with
    pausable := fun paused => absurd paused flowing
    resumed := fun _ => flowing
    deferred := by
      intro deferred
      rcases underway.deferred deferred with releasing | ended
      · exact Or.inl releasing
      · exact Or.inr ⟨ended.1, flowing⟩
    signalled := fun _ => Or.inr (Or.inl rfl)
    loop := fun closed => ⟨(underway.loop closed).1, Or.inl rfl⟩ }

/-- The job moves on without touching the hop. -/
theorem rejob (underway : state.Underway config) (job : Job) (scheduled : Bool)
    (accepted : job ≠ .absent) (closings : state.job.closings = job.closings)
    (finished : state.job.finished = job.finished)
    (pumping : state.job = .pumping ↔ job = .pumping)
    (signalled : job = .signalled →
      scheduled = true ∨ state.cleanupDone = true ∨ state.loopClosed = true) :
    State.Underway config { state with job := job, scheduled := scheduled } :=
  { underway with
    accepted := accepted
    closed := underway.closed.trans closings
    io := underway.io.trans pumping
    completed := underway.completed.trans finished
    restorations := by
      have restorations := underway.restorations
      rwa [finished] at restorations
    original := by
      have original := underway.original
      rwa [finished] at original
    winners := by
      have winners := underway.winners
      rwa [finished] at winners
    signalled := signalled }

theorem publish (underway : state.Underway config) {failed : Bool}
    (stage : state.job = .returned failed) :
    State.Underway config { state with job := .published failed } := by
  apply underway.rejob (.published failed) state.scheduled Job.noConfusion
  · rw [stage]
    rfl
  · rw [stage]
    rfl
  · simp [stage]
  · intro signalled
    cases signalled

theorem signal (underway : state.Underway config) (stage : state.job = .completed) :
    state.signal.Underway config := by
  apply underway.rejob .signalled (!state.loopClosed) Job.noConfusion
  · rw [stage]
    rfl
  · rw [stage]
    rfl
  · simp [stage]
  · intro
    cases state.loopClosed with
    | false => exact Or.inl rfl
    | true => exact Or.inr (Or.inr rfl)

/-- The job moves on with what it does to the hop, short of completing it. -/
theorem work (underway : state.Underway config) (job : Job) (io : NativeIo)
    (closings : List (Descriptor × Closer)) (outcomes : List RustPumpHandoffOutcome)
    (accepted : job ≠ .absent)
    (closed : state.job.closings ++ closings = job.closings)
    (unfinished : state.job.finished = false) (goesOn : job.finished = false)
    (pumping : io = .running ↔ job = .pumping) :
    State.Underway config { state with
      job := job
      hop := { state.hop with
        io := io
        closed := state.hop.closed ++ closings
        handoffOutcomes := outcomes } } :=
  { underway with
    accepted := accepted
    closed := by
      change state.hop.closed ++ closings = job.closings
      rw [underway.closed, closed]
    io := pumping
    completed := underway.completed.trans (unfinished.trans goesOn.symm)
    restorations := by
      have restorations := underway.restorations
      rwa [unfinished, ← goesOn] at restorations
    original := by
      intro finished
      change job.finished = true at finished
      rw [goesOn] at finished
      cases finished
    winners := by
      have winners := underway.winners
      rwa [unfinished, ← goesOn] at winners
    signalled := by
      intro signalled
      change job = .signalled at signalled
      rw [signalled] at goesOn
      cases goesOn }

theorem prepare (underway : state.Underway config) (stage : state.job = .queued)
    {faults : Faults} (silent : faults .logReaderPreparation = none) :
    (state.prepare faults).Underway config := by
  have ends : Ends (prepareRustPumpCall faults) _ _ state.hop :=
    prepareRustPumpCall_ends silent
  unfold Ends at ends
  unfold State.prepare
  cases ran : prepareRustPumpCall faults state.hop with
  | ok _ hop =>
      simp only [ran] at ends ⊢
      subst hop
      have begun := underway.work .pumping .running [] state.hop.handoffOutcomes
        Job.noConfusion (by rw [stage]; rfl) (by rw [stage]; rfl) rfl (by simp)
      rwa [List.append_nil] at begun
  | error _ hop =>
      simp only [ran] at ends ⊢
      obtain ⟨outcomes, same⟩ := ends
      subst hop
      have idle : state.hop.io ≠ .running := by
        rw [Ne, underway.io, stage]
        exact Job.noConfusion
      exact underway.work (.returned true) state.hop.io _ outcomes Job.noConfusion
        (by rw [stage]; rfl) (by rw [stage]; rfl) rfl (by simp [idle])

theorem stopNative (underway : state.Underway config) (stage : state.job = .pumping)
    (failed : Bool) : (state.stopNative failed).Underway config := by
  apply underway.work (.returned failed) .stopped [(.nativeWriter, .job)]
    state.hop.handoffOutcomes Job.noConfusion
  · rw [stage]
    rfl
  · rw [stage]
    rfl
  · rfl
  · simp

theorem complete (underway : state.Underway config) {failed : Bool}
    (stage : state.job = .published failed) (faults : Faults) :
    (state.complete config.held failed faults).Underway config := by
  have unfinished : state.job.finished = false := by
    rw [stage]
    rfl
  have idle : state.hop.io ≠ .running := by
    rw [Ne, underway.io, stage]
    exact Job.noConfusion
  obtain ⟨retained, spans, modes, refusals, given, same⟩ :
      state.hop.Completed config.held.guard _ :=
    @completeRustPump_left faults config.held state.hop failed
  unfold State.complete
  rw [same]
  exact { underway with
    accepted := Job.noConfusion
    closed := by
      change state.hop.closed ++ _ ++ _ = _
      rw [underway.closed, stage]
      rfl
    io := by simp [idle]
    completed := rfl
    restorations := by
      have restorations := underway.restorations
      rw [unfinished] at restorations
      refine ⟨state.hop.io, idle, ?_⟩
      change state.hop.restorations ++ [state.hop.io] = [state.hop.io]
      rw [restorations.1]
      rfl
    original := by
      intro _ none_
      have restorations := underway.restorations
      rw [unfinished] at restorations
      change state.hop.refusals ++ refusals = [] at none_
      rw [restorations.2] at none_
      exact given none_
    winners := by
      have winners := underway.winners
      rw [unfinished] at winners
      change (if state.hop.wasDeferred then _ else _) = winnersAt state.hop.wasDeferred true
      rw [winners]
      cases state.hop.wasDeferred <;> rfl
    signalled := fun signalled => nomatch signalled }

theorem next {event : Event} (underway : state.Underway config)
    (allowed : permitted state event = true)
    (step : next config state event = some after) : after.Underway config := by
  have held := underway.held
  cases event with
  | handOff faults =>
      simp [NativePump.next, underway.started] at step
  | register =>
      obtain ⟨stage, step⟩ := Option.ite_none_right_eq_some.mp step
      cases step
      exact underway.retask .announcing _ _ _ _ _ PumpTask.noConfusion (by simp [stage])
        (by simp [stage])
  | announce raised =>
      obtain ⟨⟨stage, _⟩, step⟩ := Option.ite_none_right_eq_some.mp step
      cases step
      refine underway.retask (if raised.isSome then .ended else .awaiting) _ _ _ _ _ ?_
        (by simp [stage]) (by simp [stage])
      split <;> exact PumpTask.noConfusion
  | prepare faults =>
      obtain ⟨stage, step⟩ := Option.ite_none_right_eq_some.mp step
      cases step
      exact underway.prepare stage (Option.isNone_iff_eq_none.mp allowed)
  | stopNative failed =>
      obtain ⟨stage, step⟩ := Option.ite_none_right_eq_some.mp step
      cases step
      exact underway.stopNative stage failed
  | publish =>
      simp only [NativePump.next] at step
      split at step
      · rename_i failed stage
        cases step
        exact underway.publish stage
      · cases step
  | complete faults =>
      simp only [NativePump.next, held] at step
      cases published : state.job.failed? with
      | none => simp [published] at step
      | some failed =>
          simp only [published] at step
          obtain ⟨_, step⟩ := Option.ite_none_right_eq_some.mp step
          cases step
          exact underway.complete (Job.eq_published published) faults
  | signal =>
      obtain ⟨stage, step⟩ := Option.ite_none_right_eq_some.mp step
      cases step
      exact underway.signal stage
  | resume =>
      simp only [NativePump.next, held] at step
      obtain ⟨_, step⟩ := Option.ite_none_right_eq_some.mp step
      cases step
      exact underway.resume
  | wake =>
      obtain ⟨⟨stage, _⟩, step⟩ := Option.ite_none_right_eq_some.mp step
      cases step
      exact underway.retask .ended _ _ _ _ _ PumpTask.noConfusion (by simp [stage])
        (by simp [stage])
  | cancel raised =>
      simp only [NativePump.next] at step
      split at step
      · rename_i stage
        cases step
        refine underway.retask (if raised.isSome then .ended else .settling) _ _ _ _ _ ?_
          (by simp [stage]) (by simp [stage])
        split <;> exact PumpTask.noConfusion
      · obtain ⟨_, step⟩ := Option.ite_none_right_eq_some.mp step
        cases step
        exact underway
  | settle =>
      obtain ⟨⟨stage, _⟩, step⟩ := Option.ite_none_right_eq_some.mp step
      cases step
      exact underway.retask .ended _ _ _ _ _ PumpTask.noConfusion (by simp [stage])
        (by simp [stage])
  | graceExpires =>
      obtain ⟨⟨stage, _⟩, step⟩ := Option.ite_none_right_eq_some.mp step
      cases step
      exact underway.graceExpires stage
  | release =>
      simp only [NativePump.next, held] at step
      obtain ⟨stage, step⟩ := Option.ite_none_right_eq_some.mp step
      cases step
      exact underway.release stage
  | closeLoop =>
      obtain ⟨⟨stage, _⟩, step⟩ := Option.ite_none_right_eq_some.mp step
      cases step
      apply underway.closeLoop stage
      simp only [permitted, underway.accepted, decide_false, Bool.or_false,
        Bool.or_eq_true] at allowed
      exact allowed

end State.Underway

theorem State.Abandoned.next {event : Event} (abandoned : state.Abandoned config)
    (step : next config state event = some after) : after.Sound config := by
  cases event with
  | closeLoop =>
      obtain ⟨_, step⟩ := Option.ite_none_right_eq_some.mp step
      cases step
      exact .abandoned ⟨abandoned.ended, abandoned.absent, abandoned.released, abandoned.undone⟩
  | _ =>
      simp [NativePump.next, Job.failed?, abandoned.ended, abandoned.absent,
        abandoned.released] at step

theorem State.Sound.next {event : Event} (sound : state.Sound config)
    (allowed : permitted state event = true)
    (step : next config state event = some after) : after.Sound config := by
  cases sound with
  | fresh =>
      cases event with
      | handOff faults =>
          simp only [NativePump.next, if_true, Option.some.injEq] at step
          subst step
          exact handOff_sound allowed
      | _ => simp [NativePump.next] at step
  | abandoned abandoned => exact abandoned.next step
  | underway underway => exact .underway (underway.next allowed step)

theorem reachable_sound
    (reachable : ((system config).guarded permitted).Reachable state) :
    state.Sound config := by
  apply reachable.invariant State.Sound.fresh
  intro before event after sound step
  obtain ⟨allowed, step⟩ := (System.guarded_next _).mp step
  exact sound.next allowed step

theorem State.Abandoned.orderly (abandoned : state.Abandoned config) :
    state.Orderly config where
  openedOnce := abandoned.undone.openedOnce
  closedOnce descriptor := Nat.le_of_eq (abandoned.undone.closedOnce descriptor)
  writer closer member := by
    rw [abandoned.undone.submitted]
    exact abandoned.undone.closers _ member
  stopped := by
    intro _ running
    rw [abandoned.undone.io] at running
    cases running
  restored := by
    rw [abandoned.undone.restored]
    split <;> simp
  original := fun _ => abandoned.undone.original
  oneWinner := by
    rw [abandoned.undone.undecided]
    exact Nat.zero_le 1

theorem State.Abandoned.freed (abandoned : state.Abandoned config) :
    state.Released config where
  closed := abandoned.undone.closedOnce
  flowing := abandoned.undone.flowing
  restored := by
    intro engaged
    rw [abandoned.undone.restored, if_pos engaged]
    rfl
  original := abandoned.undone.original
  winner := by
    intro submitted
    rw [abandoned.undone.submitted] at submitted
    cases submitted

theorem winnersAt_length (deferred completed : Bool) :
    (winnersAt deferred completed).length ≤ 1 := by
  cases deferred <;> cases completed <;> decide

theorem State.Underway.orderly (underway : state.Underway config) : state.Orderly config where
  openedOnce descriptor := by
    rw [underway.opened]
    cases descriptor <;> decide
  closedOnce descriptor := by
    rw [underway.opened, underway.closed]
    cases state.job <;> cases descriptor <;> simp [Job.closings, stateClosings]
  writer closer member := by
    rw [underway.closed] at member
    rw [underway.submitted]
    revert member
    cases state.job <;> simp [Job.closings, stateClosings]
  stopped := by
    intro restored running
    have restorations := underway.restorations
    rw [underway.io.mp running] at restorations
    exact restored restorations.1
  restored := by
    have restorations := underway.restorations
    split at restorations
    · obtain ⟨phase, stopped, only⟩ := restorations
      rw [only, List.mem_singleton]
      exact fun running => stopped running.symm
    · rw [restorations.1]
      exact List.not_mem_nil
  original := by
    intro restored
    have restorations := underway.restorations
    split at restorations
    · rename_i finished
      exact underway.original finished
    · exact absurd restorations.1 restored
  oneWinner := by
    rw [underway.winners]
    exact winnersAt_length _ _

/-- Once everything of an accepted hop has run, the callback has closed what the job
left and one of the two cleanups has won. -/
theorem State.Underway.freed (underway : state.Underway config)
    (quiescent : state.Quiescent) : state.Released config := by
  obtain ⟨ended, job, resumption⟩ := quiescent
  have signalled : state.job = .signalled := job.resolve_left underway.accepted
  have restorations := underway.restorations
  rw [signalled] at restorations
  obtain ⟨phase, _, only⟩ := restorations
  constructor
  · intro descriptor
    rw [underway.opened, underway.closed, signalled]
    cases descriptor <;> decide
  · have settled : state.cleanupDone = true ∨ state.hop.wasDeferred = true := by
      rcases underway.signalled signalled with scheduled | done | closed
      · exact (underway.loop (resumption scheduled)).2
      · exact Or.inl done
      · exact (underway.loop closed).2
    rcases settled with done | deferred
    · exact underway.resumed done
    · rcases underway.deferred deferred with releasing | flowing
      · rw [ended] at releasing
        cases releasing
      · exact flowing.2
  · intro _
    rw [only]
    rfl
  · exact underway.original (by rw [signalled]; rfl)
  · intro _
    rw [underway.winners, signalled]
    cases state.hop.wasDeferred <;> rfl

/-- In every run that keeps to the permitted steps, whatever fails and whoever moves
first: every descriptor opened for the hop is closed at most once and, when nothing
of the hop is left to run, exactly once, the native writer by the job from its
acceptance on and by the start before it; the blocking modes are given back only
while no native I/O runs, and then once, to what they were; the reader is left flowing or
closed; and of a deferred and an immediate cleanup exactly one has won. -/
theorem native_pump_released_once
    (reachable : ((system config).guarded permitted).Reachable state) :
    state.Orderly config ∧ (state.Quiescent → state.Released config) := by
  cases reachable_sound reachable with
  | fresh =>
      refine ⟨⟨?_, ?_, ?_, ?_, ?_, fun _ _ => rfl, ?_⟩, ?_⟩
      · intro descriptor
        exact Nat.zero_le 1
      · intro descriptor
        exact Nat.le_refl 0
      · intro closer member
        cases member
      · intro restored
        exact absurd rfl restored
      · exact List.not_mem_nil
      · exact Nat.zero_le 1
      · intro quiescent
        cases quiescent.1
  | abandoned abandoned => exact ⟨abandoned.orderly, fun _ => abandoned.freed⟩
  | underway underway => exact ⟨underway.orderly, underway.freed⟩

section Examples

def pipeConfig : Config where
  paused := true
  modes := ⟨false, false⟩

def noFaults : Faults := fun _ => none

/-- The grace expires while the native call is still writing. -/
def deferredSteps : List Event :=
  [.handOff noFaults, .register, .announce none, .prepare noFaults, .cancel none,
    .graceExpires, .release, .closeLoop, .stopNative true, .publish,
    .complete noFaults, .signal]

def deferredState : State :=
  (((system pipeConfig).guarded permitted).exec
    (system pipeConfig).initial deferredSteps).getD (system pipeConfig).initial

theorem native_pump_released_once_deferred :
    deferredState.Quiescent ∧ deferredState.Released pipeConfig :=
  have quiescent : deferredState.Quiescent := ⟨rfl, Or.inr rfl, fun _ => rfl⟩
  ⟨quiescent,
    (@native_pump_released_once pipeConfig deferredState ⟨deferredSteps, rfl⟩).2 quiescent⟩

/-- The descriptor table is full, and the handler that logs it raises as well. -/
def exhausted : Faults
  | .dupNativeReader => some .osError
  | .logDuplicateWriter => some .osError
  | _ => none

def leakedSteps : List Event := [.handOff exhausted]

def leakedState : State :=
  ((system pipeConfig).exec (system pipeConfig).initial leakedSteps).getD
    (system pipeConfig).initial

/-- The completion takes the lock just before the grace expires, and the loop is
gone when the callback comes to signal it. -/
def strandedSteps : List Event :=
  [.handOff noFaults, .register, .announce none, .prepare noFaults, .cancel none,
    .stopNative false, .publish, .complete noFaults, .graceExpires, .closeLoop, .signal]

def strandedState : State :=
  ((system pipeConfig).exec (system pipeConfig).initial strandedSteps).getD
    (system pipeConfig).initial

/-- Nothing is left to run, and two duplicates stay open behind a reader that stays
paused; or all is closed, and the reader stays paused on a closed loop. -/
theorem native_pump_strands_its_reader :
    ((system pipeConfig).Reachable leakedState ∧ leakedState.Quiescent ∧
        leakedState.hop.opened = [.stateReader, .stateWriter] ∧
        leakedState.hop.closed = [] ∧ leakedState.hop.transport = .paused) ∧
      (system pipeConfig).Reachable strandedState ∧ strandedState.Quiescent ∧
        strandedState.hop.winners = [.completion] ∧
        strandedState.hop.transport = .paused :=
  ⟨⟨⟨leakedSteps, rfl⟩, ⟨rfl, Or.inl rfl, fun _ => by contradiction⟩, rfl, rfl, rfl⟩,
    ⟨strandedSteps, rfl⟩, ⟨rfl, Or.inr rfl, fun _ => rfl⟩, rfl, rfl⟩

end Examples

end Cuprum.NativePump
