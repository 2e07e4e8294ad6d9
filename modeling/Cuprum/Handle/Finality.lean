import Cuprum.Handle.Callers

namespace Cuprum.Handle

variable {δ ε ρ η : Type} {run : HandleRun δ ε η} {caller other : Nat}
  {shared shared' : Shared δ ε ρ η} {phase phase' : Phase δ ε ρ}

namespace History

def recorders (history : History δ ε ρ η) : List Nat := history.recorded.map Prod.fst

/-- The caller has neither recorded a deadline nor begun a stop. -/
def Harmless (history : History δ ε ρ η) (caller : Nat) : Prop :=
  caller ∉ history.recorders ∧ caller ∉ history.stops

end History

/-- The caller's deadline may still expire, or is about to. -/
def Phase.pending : Phase δ ε ρ → Bool
  | .absent | .expiring _ | .entering (.direct (some _))
  | .awaiting (.direct (some _)) _ | .recording (.direct (some _)) _ => true
  | _ => false

/-- The caller only has the outcome to read. -/
def Phase.reading : Phase δ ε ρ → Bool
  | .entering (.direct none) | .awaiting (.direct none) _
  | .recording (.direct none) _ | .done _ => true
  | _ => false

/-- What the history says of a caller, by where it stands. -/
structure Tracked (history : History δ ε ρ η) (caller : Nat) (phase : Phase δ ε ρ) :
    Prop where
  untouched (pending : phase.pending) :
    history.Harmless caller ∧ caller ∉ history.foundExited
  spared (exited : caller ∈ history.foundExited) :
    history.Harmless caller ∧ phase.reading

theorem Tracked.keep {history : History δ ε ρ η}
    (tracked : Tracked history caller phase) (pending : phase'.pending → phase.pending)
    (reading : phase.reading → phase'.reading) : Tracked history caller phase' where
  untouched later := tracked.untouched (pending later)
  spared exited := (tracked.spared exited).imp_right reading

section Phases

variable [DecidableEq ε]

theorem weigh_reading (stopper : Stopper) (stop settle : StepReport ε) :
    (weigh stopper stop settle : Phase δ ε ρ).reading ∧
      ¬(weigh stopper stop settle : Phase δ ε ρ).pending := by
  unfold weigh
  split <;> split <;> exact ⟨rfl, Bool.false_ne_true⟩

theorem Watcher.resume_reading (watcher : Watcher δ ε) (result : ρ) :
    (watcher.resume result).reading ∧ ¬(watcher.resume result).pending := by
  cases watcher with
  | direct => exact ⟨rfl, Bool.false_ne_true⟩
  | settleStep stopper stop callerCancelled => exact weigh_reading stopper stop _

theorem Watcher.fail_reading (watcher : Watcher δ ε) (isTimeoutError : ε → Bool)
    (error : Raised ε) (settling : Nat) :
    ((watcher.fail isTimeoutError error : Phase δ ε ρ).pending →
        (Phase.awaiting watcher settling : Phase δ ε ρ).pending) ∧
      ((Phase.awaiting watcher settling : Phase δ ε ρ).reading →
        (watcher.fail isTimeoutError error : Phase δ ε ρ).reading) := by
  cases watcher with
  | settleStep stopper stop callerCancelled =>
      have weighed := @weigh_reading δ ε ρ _ stopper stop
        (.of callerCancelled (some error))
      exact ⟨fun later => absurd later weighed.2, fun _ => weighed.1⟩
  | direct deadline =>
      cases deadline with
      | none => exact ⟨fun later => absurd later Bool.false_ne_true, fun _ => rfl⟩
      | some deadline => exact ⟨fun _ => rfl, fun reading => nomatch reading⟩

end Phases

theorem Phase.clock_pending {deadline : δ} (running : phase.clock = some deadline) :
    phase.pending ∧ ¬phase.reading := by
  cases phase with
  | absent | expiring | stopQueued | stopping | reaping | reaped | done => cases running
  | entering watcher | awaiting watcher | recording watcher =>
      cases watcher with
      | settleStep => cases running
      | direct =>
          cases running
          exact ⟨rfl, Bool.false_ne_true⟩

theorem Stop.finish_pending (stop : Stop δ) (callerCancelled : Bool)
    (raised : Option (Raised ε)) :
    ¬(stop.finish callerCancelled raised : Phase δ ε ρ).pending := by
  cases stop with
  | stopStep => exact Bool.false_ne_true
  | expiry =>
      cases callerCancelled with
      | true => exact Bool.false_ne_true
      | false => cases raised <;> exact Bool.false_ne_true

theorem Phase.cancel_reading (cancelled : phase.cancel = some phase') :
    ¬phase'.pending ∧ (phase.reading → phase'.reading) := by
  cases phase with
  | absent | done => cases cancelled
  | entering watcher | awaiting watcher | recording watcher =>
      cases watcher <;> cases cancelled <;>
        exact ⟨Bool.false_ne_true, fun reading => by first | rfl | exact reading⟩
  | stopQueued stop =>
      cases stop <;> cases cancelled <;>
        exact ⟨Bool.false_ne_true, fun reading => nomatch reading⟩
  | stopping | expiring | reaping | reaped =>
      cases cancelled
      exact ⟨Bool.false_ne_true, fun reading => nomatch reading⟩

@[simp] theorem Shared.ensureTask_history (shared : Shared δ ε ρ η) :
    shared.ensureTask.2.history = shared.history := by
  unfold Shared.ensureTask
  split <;> rfl

@[simp] theorem Shared.releaseStop_history (shared : Shared δ ε ρ η) (caller : Nat) :
    (shared.releaseStop caller).history = shared.history := by
  unfold Shared.releaseStop
  split <;> rfl

section History

variable [OfNat δ 0] [LE δ] [LT δ] [DecidableLE δ] [DecidableLT δ] [DecidableEq ε]

/-- A caller's step is noted under its own name only. -/
theorem Acts.others (acts : Acts run caller shared phase shared' phase')
    (ne : other ≠ caller) {standing : Phase δ ε ρ}
    (tracked : Tracked shared.history other standing) :
    Tracked shared'.history other standing := by
  have same (recorded : other ∈ shared'.history.recorders ↔ other ∈ shared.history.recorders)
      (stops : other ∈ shared'.history.stops ↔ other ∈ shared.history.stops)
      (exited : other ∈ shared'.history.foundExited ↔ other ∈ shared.history.foundExited) :
      Tracked shared'.history other standing := by
    obtain ⟨untouched, spared⟩ := tracked
    exact ⟨by simpa only [History.Harmless, recorded, stops, exited] using untouched,
      by simpa only [History.Harmless, recorded, stops, exited] using spared⟩
  cases acts with
  | waits | queues | reads | answered | fails | records | spared | reaps | reapFails
  | tells | clock | cancel | settleEscapes => exact tracked
  | stopped | stopEscapes => rwa [Shared.releaseStop_history]
  | drives => rwa [Shared.ensureTask_history]
  | kills | stops => exact same .rfl (by simp [Shared.acquireStop, Shared.beginStop, ne]) .rfl
  | sparedExited => exact same .rfl .rfl (by simp [Shared.noteExited, ne])
  | findsExited =>
      apply same <;> simp [Shared.noteExited, History.recorders, ne]
  | expires =>
      apply same <;> simp [Shared.recordDeadline, History.recorders, ne]

/-- A caller that may expire has done nothing yet, and one that found the child
exited is left to read the outcome. -/
theorem Acts.tracked (acts : Acts run caller shared phase shared' phase')
    (tracked : Tracked shared.history caller phase) :
    Tracked shared'.history caller phase' := by
  cases acts with
  | waits timeout =>
      refine ⟨fun _ => tracked.untouched rfl, fun exited => ?_⟩
      exact absurd exited (tracked.untouched rfl).2
  | queues => exact tracked.keep (fun later => nomatch later) (fun reading => nomatch reading)
  | reads watcher settled =>
      have resumed := watcher.resume_reading settled
      exact tracked.keep (fun later => absurd later resumed.2) (fun _ => resumed.1)
  | records watcher awaited =>
      have resumed := watcher.resume_reading awaited
      exact tracked.keep (fun later => absurd later resumed.2) (fun _ => resumed.1)
  | drives watcher =>
      rw [Shared.ensureTask_history]
      cases watcher with
      | settleStep => exact tracked.keep id id
      | direct deadline => cases deadline <;> exact tracked.keep id id
  | answered watcher =>
      cases watcher with
      | settleStep => exact tracked.keep id id
      | direct deadline => cases deadline <;> exact tracked.keep id id
  | fails watcher settling error =>
      have failed := @Watcher.fail_reading δ ε ρ _ watcher run.isTimeoutError error settling
      exact tracked.keep failed.1 failed.2
  | kills =>
      refine ⟨(fun later => nomatch later), fun exited => ?_⟩
      exact absurd exited (tracked.untouched rfl).2
  | spared => exact tracked.keep (fun later => nomatch later) (fun _ => rfl)
  | sparedExited =>
      exact ⟨(fun later => nomatch later), fun _ => ⟨(tracked.untouched rfl).1, rfl⟩⟩
  | findsExited =>
      rw [Shared.ensureTask_history]
      exact ⟨(fun later => nomatch later), fun _ => ⟨(tracked.untouched rfl).1, rfl⟩⟩
  | expires =>
      rw [Shared.ensureTask_history]
      refine ⟨(fun later => nomatch later), fun exited => ?_⟩
      exact absurd exited (tracked.untouched rfl).2
  | stops =>
      refine ⟨(fun later => nomatch later), fun exited => ?_⟩
      exact nomatch (tracked.spared exited).2
  | stopped stop callerCancelled raised =>
      rw [Shared.releaseStop_history]
      refine tracked.keep (fun later => ?_) (fun reading => nomatch reading)
      exact absurd later (stop.finish_pending callerCancelled raised)
  | stopEscapes =>
      rw [Shared.releaseStop_history]
      exact tracked.keep (fun later => nomatch later) (fun reading => nomatch reading)
  | reaps | reapFails | tells | settleEscapes =>
      exact tracked.keep (fun later => nomatch later) (fun reading => nomatch reading)
  | clock _ deadline running =>
      have running := Phase.clock_pending running
      exact tracked.keep (fun _ => running.1) (fun reading => absurd reading running.2)
  | cancel _ _ cancelled =>
      have cancelled := Phase.cancel_reading cancelled
      exact tracked.keep (fun later => absurd later cancelled.1) cancelled.2

end History

/-- What holds of the handle between any two steps. -/
structure Invariant (run : HandleRun δ ε η) (state : State δ ε ρ η) : Prop where
  sound : state.shared.Sound run
  valid (caller : Nat) : (state.callers caller).Valid state.shared
  tracked (caller : Nat) : Tracked state.shared.history caller (state.callers caller)

theorem Invariant.initial : Invariant run (State.initial : State δ ε ρ η) where
  sound := .initial
  valid _ := trivial
  tracked _ :=
    ⟨fun _ => ⟨⟨List.not_mem_nil, List.not_mem_nil⟩, List.not_mem_nil⟩,
      fun exited => absurd exited List.not_mem_nil⟩

theorem Shared.conclude_history {settlement : Nat} (result : ρ)
    (answer : η → Option (Raised ε)) :
    let concluded := shared.conclude run settlement result answer
    concluded.history.recorded = shared.history.recorded ∧
      concluded.history.stops = shared.history.stops ∧
      concluded.history.foundExited = shared.history.foundExited := by
  cases recorded : shared.deadline with
  | some deadline =>
      rw [Shared.conclude_timeout recorded]
      exact ⟨rfl, rfl, rfl⟩
  | none =>
      cases hooked : (runHooks answer result run.afterHooks).2 with
      | some error =>
          rw [Shared.conclude_refused recorded hooked]
          exact ⟨rfl, rfl, rfl⟩
      | none =>
          rw [Shared.conclude_completed recorded hooked]
          exact ⟨rfl, rfl, rfl⟩

theorem Shared.advance_history {before after : Shared δ ε ρ η} {progress : Progress ε ρ η}
    (step : before.advance run progress = some after) :
    after.history.recorded = before.history.recorded ∧
      after.history.stops = before.history.stops ∧
      after.history.foundExited = before.history.foundExited := by
  cases progress with
  | exit | collect | publish =>
      simp only [Shared.advance] at step
      split at step <;> cases step <;> exact ⟨rfl, rfl, rfl⟩
  | settled settlement ending answer =>
      simp only [Shared.advance] at step
      split at step
      case h_1 =>
        cases step
        exact ⟨rfl, rfl, rfl⟩
      case h_2 =>
        split at step <;> cases step
        exact Shared.conclude_history _ _
      case h_3 => cases step
  | finalized =>
      simp only [Shared.advance] at step
      split at step <;> cases step <;> exact ⟨rfl, rfl, rfl⟩

theorem Tracked.advance {before after : Shared δ ε ρ η} {progress : Progress ε ρ η}
    (step : before.advance run progress = some after)
    (tracked : Tracked before.history caller phase) :
    Tracked after.history caller phase := by
  obtain ⟨recorded, stops, exited⟩ := Shared.advance_history step
  obtain ⟨untouched, spared⟩ := tracked
  constructor
  · simpa only [History.Harmless, History.recorders, recorded, stops, exited] using untouched
  · simpa only [History.Harmless, History.recorders, recorded, stops, exited] using spared

theorem Invariant.started_eq_one {state : State δ ε ρ η}
    (invariant : Invariant run state) (started : 0 < state.shared.started) :
    state.shared.started = 1 :=
  Nat.le_antisymm invariant.sound.once started

/-- Settlement is single and final. -/
structure SingleAndFinal (run : HandleRun δ ε η) (state : State δ ε ρ η) : Prop where
  single (settlement : Nat) (started : state.shared.settlements settlement ≠ .unstarted) :
    settlement = 0 ∧ state.shared.started = 1
  started (caller : Nat) (ending : Ending δ ε ρ) (told : ∀ error, ending ≠ .raised error)
    (ended : state.callers caller = .done ending) : state.shared.started = 1
  uncancelled : state.shared.history.cancelled = []
  returned (caller : Nat) (result : ρ)
    (ended : state.callers caller = .done (.returned result)) :
    state.shared.result = some result
  left (caller : Nat) (ended : state.callers caller = .done (.left false)) :
    state.shared.result ≠ none
  result (result : ρ) : state.shared.result = some result ↔
    state.shared.settlements 0 = .finished (.ok result)
  finalized (settlement : Nat) (result : ρ)
    (finished : state.shared.settlements settlement = .finished (.ok result)) :
    Concluded run state.shared.history result
  spared (caller : Nat) (exited : caller ∈ state.shared.history.foundExited) :
    (∀ deadline, (caller, deadline) ∉ state.shared.history.recorded) ∧
      caller ∉ state.shared.history.stops
  failed (settlement : Nat) (error : Raised ε)
    (finished : state.shared.settlements settlement = .finished (.error error))
    (caller : Nat) (deadline : δ) (result : ρ) :
    state.callers caller ≠ .done (.timeoutExpired deadline result)

theorem Invariant.singleAndFinal {state : State δ ε ρ η}
    (invariant : Invariant run state) : SingleAndFinal run state where
  single settlement started := by
    refine ⟨invariant.sound.settlement_eq_zero started, invariant.started_eq_one ?_⟩
    exact Nat.zero_lt_of_lt
      (Nat.lt_of_not_le (mt (invariant.sound.unstarted settlement).mpr started))
  started caller ending told ended := by
    have valid := invariant.valid caller
    rw [ended] at valid
    apply invariant.started_eq_one
    match ending with
    | .returned _ | .timeoutExpired _ _ => exact valid.2
    | .left _ => exact valid.1
    | .raised error => exact absurd rfl (told error)
  uncancelled := invariant.sound.uncancelled
  returned caller result ended := by
    have valid := invariant.valid caller
    rw [ended] at valid
    exact valid.1
  left caller ended := by
    have valid := invariant.valid caller
    rw [ended] at valid
    exact valid.2 rfl
  result := invariant.sound.result
  finalized settlement result finished := by
    have accounts := invariant.sound.accounts
    rw [(invariant.sound.result result).mp (invariant.sound.result_of_finished finished)]
      at accounts
    exact accounts
  spared caller exited := by
    obtain ⟨⟨unrecorded, unstopped⟩, -⟩ := (invariant.tracked caller).spared exited
    refine ⟨fun deadline recorded => ?_, unstopped⟩
    exact unrecorded (List.mem_map.mpr ⟨_, recorded, rfl⟩)
  failed settlement error finished caller deadline result ended := by
    have valid := invariant.valid caller
    rw [ended] at valid
    have succeeded := (invariant.sound.result result).mp valid.1
    have created : state.shared.settlements settlement ≠ .unstarted := by
      rw [finished]
      exact fun wrong => nomatch wrong
    rw [invariant.sound.settlement_eq_zero created, succeeded] at finished
    cases finished

section Runs

variable [OfNat δ 0] [LE δ] [LT δ] [DecidableLE δ] [DecidableLT δ] [DecidableEq ε]
  {state later : State δ ε ρ η}

theorem Invariant.step {event : Event δ ε ρ η} (invariant : Invariant run state)
    (step : (handle ρ run).next state event = some later) :
    Invariant run later ∧ state.shared.Extends later.shared := by
  cases event with
  | caller caller action =>
      obtain ⟨⟨shared, phase⟩, acted, rfl⟩ := Option.map_eq_some_iff.mp step
      have acts := acts_of_act acted
      obtain ⟨sound, extension, valid⟩ := acts.sound invariant.sound (invariant.valid caller)
      refine ⟨⟨sound, fun other => ?_, fun other => ?_⟩, extension⟩
      · by_cases same : other = caller
        · simpa [same] using valid
        · simpa [same] using (invariant.valid other).mono extension
      · by_cases same : other = caller
        · simpa [same] using acts.tracked (invariant.tracked caller)
        · simpa [same] using acts.others same (invariant.tracked other)
  | progress progress =>
      obtain ⟨shared, advanced, rfl⟩ := Option.map_eq_some_iff.mp step
      obtain ⟨sound, extension⟩ := invariant.sound.advance advanced
      refine ⟨⟨sound, fun caller => ?_, fun caller => ?_⟩, extension⟩
      · exact (invariant.valid caller).mono extension
      · exact .advance advanced (invariant.tracked caller)

theorem Invariant.of_reachable (reachable : (handle ρ run).Reachable state) :
    Invariant run state :=
  reachable.invariant .initial fun invariant step => (invariant.step step).1

theorem Invariant.exec {events : List (Event δ ε ρ η)} (invariant : Invariant run state)
    (runs : (handle ρ run).exec state events = some later) :
    state.shared.Extends later.shared := by
  have kept : Invariant run later ∧ state.shared.Extends later.shared := by
    refine @Transition.System.exec_invariant _ _ (handle ρ run)
      (fun after => Invariant run after ∧ state.shared.Extends after.shared)
      ?_ _ _ _ ⟨invariant, .refl _⟩ runs
    intro before event after holds step
    obtain ⟨stepped, extension⟩ := holds.1.step step
    exact ⟨stepped, holds.2.trans extension⟩
  exact kept.2

theorem settlement_single_and_final (run : HandleRun δ ε η) {state : State δ ε ρ η}
    (reachable : (handle ρ run).Reachable state) :
    SingleAndFinal run state ∧
      (∀ events later, (handle ρ run).exec state events = some later →
        (∀ result, state.shared.result = some result →
          later.shared.result = some result) ∧
        ∀ settlement ending, state.shared.settlements settlement = .finished ending →
          later.shared.settlements settlement = .finished ending) ∧
      ∀ caller action later,
        (handle ρ run).next state (.caller caller action) = some later →
        ∀ settlement < state.shared.started,
          later.shared.settlements settlement = state.shared.settlements settlement := by
  have invariant := Invariant.of_reachable reachable
  refine ⟨invariant.singleAndFinal, fun events later runs => ?_, ?_⟩
  · have extension := invariant.exec runs
    exact ⟨extension.result, extension.finished⟩
  · intro caller action later step settlement started
    obtain ⟨⟨shared, phase⟩, acted, rfl⟩ := Option.map_eq_some_iff.mp step
    exact (acts_of_act acted).settlements started

end Runs

/-- One caller waits for as long as it takes, another for five seconds, and a
third leaves its block; the child is stopped for the second. -/
def deadlineRun : HandleRun Int Unit Unit where
  defaultTimeout := none
  nonReapingProbe := true
  afterHooks := [()]
  isTimeoutError := fun _ => true

def deadlineSteps : List (Event Int Unit Nat Unit) :=
  [.caller 0 (.call (.wait none)), .caller 0 .proceed, .caller 1 (.call (.wait (some 5))),
    .caller 1 .proceed, .caller 1 .clock, .caller 1 .proceed,
    .caller 2 (.call (.stop (.exit false))), .caller 1 .proceed, .caller 2 .cancel,
    .progress (.exit (-15)), .progress .publish, .caller 1 (.stopped none),
    .caller 2 .proceed, .caller 2 (.stopped none), .caller 2 .proceed,
    .progress (.settled 0 (.ok 7) fun _ => none), .progress (.finalized 0 none),
    .caller 0 .proceed, .caller 0 .proceed, .caller 1 .proceed, .caller 1 .proceed,
    .caller 2 .proceed, .caller 2 .proceed]

def deadlineState : State Int Unit Nat Unit :=
  ((handle Nat deadlineRun).exec .initial deadlineSteps).getD .initial

theorem settlement_single_and_final_deadline :
    (deadlineState.callers 0 = .done (.returned 7) ∧
      deadlineState.callers 1 = .done (.timeoutExpired 5 7) ∧
      deadlineState.callers 2 = .done (.raised .cancelled)) ∧
      deadlineState.shared.result = some 7 ∧
      Concluded deadlineRun deadlineState.shared.history 7 ∧
      SingleAndFinal deadlineRun deadlineState :=
  have settled := (settlement_single_and_final deadlineRun ⟨deadlineSteps, rfl⟩).1
  ⟨⟨rfl, rfl, rfl⟩, settled.returned 0 7 rfl, settled.finalized 0 7 rfl, settled⟩

end Cuprum.Handle
