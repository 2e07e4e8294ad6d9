import Cuprum.ReaderWait.Attribution

namespace Cuprum.ReaderWait

open Transition

variable {Error Seconds : Type}
variable {consumers : Consumer → Bool} {remaining : Option Seconds}
variable {state after : WaitState Error}

/-- What the wait does not outlast. -/
def WaitState.Ending (state : WaitState Error) : Prop :=
  state.waiterDone = true ∨ state.Failed ∨ state.running = [] ∨ state.timer = .due

def isTurn : WaitEvent Error → Bool
  | .turn => true
  | .complete _ | .begin _ | .expire | .onTimeout => false

namespace WaitState

/-- Each turn takes a callback off the queue, and one at most schedules the wait. -/
def turnsLeft (state : WaitState Error) : Nat :=
  2 * state.ready.length + if state.waiterDone = true then 0 else 2

theorem turnsLeft_setResult (state : WaitState Error) :
    state.setResult.turnsLeft = state.turnsLeft := by
  rw [setResult_eq]
  unfold turnsLeft
  by_cases done : state.waiterDone = true
  · simp [done]
  · simp only [done, List.length_append]
    simp only [if_true, Bool.false_eq_true, if_false, List.length_singleton]
    omega

theorem turnsLeft_turn {handle : Handle Error} {rest : List (Handle Error)}
    (ready : state.ready = handle :: rest) :
    (state.turn rest handle).turnsLeft < state.turnsLeft := by
  have fewer : ({ state with ready := rest } : WaitState Error).turnsLeft < state.turnsLeft := by
    unfold turnsLeft
    rw [ready, List.length_cons]
    dsimp only
    omega
  refine Nat.lt_of_le_of_lt (Nat.le_of_eq ?_) fewer
  cases handle with
  | append task => rfl
  | onCompletion task =>
      unfold turn onCompletion
      dsimp only
      split
      · rw [turnsLeft_setResult]
        rfl
      · rfl
  | releaseWaiter =>
      change (releaseWaiter { state with ready := rest }).turnsLeft = _
      unfold releaseWaiter
      split
      · rw [turnsLeft_setResult]
        rfl
      · rfl
  | wakeup => rfl

theorem Ending.turn (ending : state.Ending) {handle : Handle Error}
    {rest : List (Handle Error)} : (state.turn rest handle).Ending := by
  cases handle with
  | append task => exact ending
  | onCompletion task =>
      unfold WaitState.turn WaitState.onCompletion
      dsimp only
      split
      · exact .inl (setResult_waiterDone _)
      · exact ending
  | releaseWaiter =>
      change (WaitState.releaseWaiter { state with ready := rest }).Ending
      unfold WaitState.releaseWaiter
      split
      · exact .inl (setResult_waiterDone _)
      · exact ending
  | wakeup => exact ending

end WaitState

theorem Waiting.ready_ne_nil (waits : Waiting state) (ending : state.Ending) :
    state.ready ≠ [] := by
  intro empty
  have parked : ¬ state.waiterDone = true := by
    rw [← waits.woken, empty]
    exact List.not_mem_nil
  rcases ending with done | failed | none_ | due
  · exact parked done
  · obtain ⟨task, completed, failure⟩ := failed
    rcases waits.failing task completed failure with queued | done
    · rw [empty] at queued
      cases queued
    · exact parked done
  · apply parked
    apply waits.spent
    rw [waits.counted, none_, empty]
    rfl
  · have queued := waits.due due
    rw [empty] at queued
    cases queued

theorem wait_ends (holds : Invariant consumers remaining state)
    (waiting : state.phase = .waiting) (ending : state.Ending) :
    (readerWait consumers remaining).Inevitable isTurn
      (fun after => ∃ ended, after.phase = .finished ended) state := by
  refine @System.inevitable_of_rank _ _ (readerWait consumers remaining) isTurn
    (fun after => ∃ ended, after.phase = .finished ended)
    (fun state => Invariant consumers remaining state ∧ state.Ending ∧ state.phase ≠ .outside)
    WaitState.turnsLeft ?progress ?lowers _ ?holds
  case progress =>
    rintro state ⟨holds, ending, begun⟩ unfinished
    cases phase : state.phase with
    | outside => exact absurd phase begun
    | waiting =>
        refine ⟨.turn, rfl, ?_⟩
        cases ready : state.ready with
        | nil => exact absurd ready ((holds.waiting phase).ready_ne_nil ending)
        | cons handle rest => simp [readerWait, phase, ready]
    | finished ended => exact absurd ⟨ended, phase⟩ unfinished
  case lowers =>
    rintro state event after ⟨holds, ending, begun⟩ own step
    have kept := holds.next step
    cases stepped step with
    | complete open_ running => cases own
    | begin outside order => cases own
    | expire waiting armed => cases own
    | interrupt outside bounded => cases own
    | onTimeout waiting bounded unexpired => cases own
    | @turn handle rest waiting ready =>
        refine ⟨⟨kept, ending.turn, ?_⟩, WaitState.turnsLeft_turn ready⟩
        by_cases woken : handle = .wakeup
        · subst woken
          simp [WaitState.turn, WaitState.resume]
        · simp [WaitState.turn_phase woken, waiting]
  case holds => exact ⟨holds, ending, by simp [waiting]⟩

/-- The reader that failed first is the one reported, and the wait is not left hanging
once a reader has failed, all of them have ended or the budget has run out. -/
theorem first_reader_failure_is_reported [DecidableEq Error] (consumers : Consumer → Bool)
    (remaining : Option Seconds) {events : List (WaitEvent Error)} {state : WaitState Error}
    (runs : ((readerWait consumers remaining).guarded (attributable consumers)).exec
      ((readerWait consumers remaining).guarded (attributable consumers)).initial events =
        some state) :
    (∀ ended, state.phase = .finished ended → Right remaining state ended) ∧
      (state.phase = .waiting → state.Ending →
        (readerWait consumers remaining).Inevitable isTurn
          (fun after => ∃ ended, after.phase = .finished ended) state) := by
  have reported : Reported consumers remaining state := by
    refine System.exec_invariant _ ?_ Reported.initial runs
    intro state event after holds step
    obtain ⟨allowed, step⟩ := (System.guarded_next _).mp step
    exact holds.next allowed step
  exact ⟨reported.right, wait_ends reported.invariant⟩

/-- Both readers fail in one turn of the loop, standard error first. -/
def togetherEvents : List (WaitEvent Nat) :=
  [.begin [.stderr, .stdout], .complete ⟨.stderr, .failed 2⟩, .complete ⟨.stdout, .failed 1⟩,
    .turn, .turn, .turn, .turn, .turn]

def togetherEnd : WaitState Nat where
  phase := .finished (.returned (some 2))
  running := []
  completed := [⟨.stderr, .failed 2⟩, ⟨.stdout, .failed 1⟩]
  finished := [⟨.stderr, .failed 2⟩, ⟨.stdout, .failed 1⟩]
  ready := []
  counter := 0
  waiterDone := true
  timer := .cancelled

theorem first_reader_failure_is_reported_together :
    Right (some 5) togetherEnd (.returned (some 2)) := by
  have runs : ((readerWait (fun _ => true) (some 5)).guarded (attributable fun _ => true)).exec
      (readerWait (fun _ => true) (some 5)).initial togetherEvents = some togetherEnd := rfl
  exact (first_reader_failure_is_reported (fun _ => true) (some 5) runs).1 _ rfl

/-- Standard error fails first, before the wait begins: the wait reports the failure of
standard output. -/
theorem earlier_failures_are_misattributed :
    ∃ state : WaitState Nat,
      (readerWait (fun _ => true) (none : Option Nat)).exec
        (readerWait (fun _ => true) (none : Option Nat)).initial
        [.complete ⟨.stderr, .failed 2⟩, .complete ⟨.stdout, .failed 1⟩,
          .begin [.stdout, .stderr], .turn, .turn, .turn, .turn, .turn] = some state ∧
      state.phase = .finished (.returned (some 1)) ∧
      firstReaderFailure state.completed = some 2 ∧
      ¬ Right (none : Option Nat) state (.returned (some 1)) := by
  refine ⟨_, rfl, rfl, rfl, ?_⟩
  intro right
  have first := (right.failure 1).mp rfl
  cases first

-- One that fails after the budget has released the wait is not reported at all.
example : ((readerWait (fun _ => true) (some 5)).exec
    (readerWait (fun _ => true) (some 5)).initial
    [.begin [.stdout, .stderr], .complete ⟨.stdout, .succeeded⟩, .turn, .turn, .expire, .turn,
      .complete ⟨.stderr, .failed 2⟩, .turn]).map WaitState.phase =
        some (.finished (.returned none)) :=
  rfl

end Cuprum.ReaderWait
