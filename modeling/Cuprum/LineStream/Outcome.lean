import Cuprum.LineStream.Conservation

namespace Cuprum.LineStream

open Cuprum.Transition

/-- The steps of a pull that is under way. -/
def Event.isPullStep : Event → Bool
  | get | dropGet | wake | receive | raise => true
  | _ => false

def Event.isCoordinatorStep : Event → Bool
  | spawned _ | exited | readerFailed _ | gathered | broken _ | tornDown _ | assembled
  | post => true
  | _ => false

def Iterator.isPulling : Iterator → Bool
  | pulling | awaitingGetter | raising _ => true
  | _ => false

/-- What the future is to hold once the coordinator has ended so. -/
def outcome : Option Raised → ResultFuture
  | none => .result
  | some error => .failed error

def Iterator.rank : Iterator → Nat
  | pulling => 2
  | awaitingGetter | raising _ => 1
  | _ => 0

def Getter.rank : Getter → Nat
  | waiting | cancelling => 1
  | _ => 0

namespace State

variable {state after : State}

def readerCancelled (state : State) : Bool :=
  (state.publishers .stdout).reader = .ended (some .cancelled) ||
    (state.publishers .stderr).reader = .ended (some .cancelled)

/-- No cancellation comes to the coordinator but the iterator's own. -/
def uncancelled (state : State) (event : Event) : Bool :=
  state.iterator.isTearingDown ||
    match event with
    | .spawned startHook => startHook ≠ some .cancelled
    | .broken error => error ≠ .cancelled
    | .tornDown worse => worse ≠ some .cancelled
    | .gathered => !state.readerCancelled
    | _ => true

def pullRank (state : State) : Nat :=
  state.iterator.rank + state.getter.rank

theorem consume_rank (item : QueueItem) : (state.consume item).pullRank = 0 := by
  cases item <;> rfl

theorem consume_future (item : QueueItem) : (state.consume item).future = state.future := by
  cases item <;> rfl

theorem Getter.rank_cancel (getter : Getter) : getter.cancel.rank = getter.rank := by
  cases getter <;> rfl

/-- A step of a pull brings it nearer its end, and leaves the outcome alone. -/
theorem pullStep_lowers {event : Event} (own : event.isPullStep = true)
    (step : state.next event = some after) :
    after.future = state.future ∧ after.pullRank < state.pullRank := by
  cases event with
  | get =>
      simp only [next] at step
      split at step
      · rename_i waiting _
        cases step
        simp [pullRank, waiting, Getter.rank]
      · cases step
  | dropGet =>
      obtain ⟨cancelling, step⟩ := Option.ite_none_right_eq_some.mp step
      cases step
      simp [pullRank, cancelling, Getter.rank]
  | wake =>
      obtain ⟨pulling, step⟩ := Option.ite_none_right_eq_some.mp step
      unfold wake at step
      split at step
      · cases step
        refine ⟨rfl, ?_⟩
        change Iterator.rank _ + state.getter.cancel.rank < state.iterator.rank + _
        rw [Getter.rank_cancel, pulling]
        exact Nat.add_lt_add_right (Nat.lt_succ_self 1) _
      · rename_i item _ _
        cases step
        rw [consume_future, consume_rank, pullRank, pulling]
        exact ⟨rfl, Nat.add_pos_left (Nat.succ_pos 1) _⟩
      · cases step
        simp [pullRank, pulling, Iterator.rank]
      · cases step
  | receive =>
      simp only [next] at step
      split at step
      · rename_i item awaiting _
        cases step
        rw [consume_future, consume_rank, pullRank, awaiting]
        exact ⟨rfl, Nat.add_pos_left (Nat.succ_pos 0) _⟩
      · cases step
  | raise =>
      simp only [next] at step
      split at step
      · rename_i error raising
        obtain ⟨_, step⟩ := Option.ite_none_right_eq_some.mp step
        cases step
        simp [pullRank, raising, Iterator.rank]
      · cases step
  | reader | spawned | exited | readerFailed | gathered | broken | tornDown | assembled
  | post | pull | cancelPull | close => cases own

/-- While the outcome is there a pull is never stuck. -/
theorem Sound.pullStep_possible (sound : state.Sound) (settled : state.future ≠ .pending)
    (pulling : state.iterator.isPulling = true) :
    ∃ event : Event, event.isPullStep = true ∧ (state.next event).isSome = true := by
  cases stage : state.iterator with
  | pulling =>
      refine ⟨.wake, rfl, ?_⟩
      cases future : state.future with
      | pending => exact absurd future settled
      | failed error => simp [State.next, stage, State.wake, future]
      | result =>
          rcases sound.pulling (Or.inl stage) with waiting | ⟨item, got⟩
          · simp [State.next, stage, State.wake, future, waiting]
          · simp [State.next, stage, State.wake, future, got]
  | awaitingGetter =>
      have resulted := sound.awaiting stage
      rcases sound.pulling (Or.inr stage) with waiting | ⟨item, got⟩
      · refine ⟨.get, rfl, ?_⟩
        cases sound.delivery with
        | streaming _ _ unposted => exact absurd resulted unposted
        | posted lines queued => cases lines <;> simp [State.next, waiting, queued]
        | received _ _ read | completed _ _ read => cases waiting.symm.trans read
      · refine ⟨.receive, rfl, ?_⟩
        simp [State.next, stage, got]
  | raising error =>
      cases getter : state.getter with
      | waiting => exact absurd getter (sound.gaveUp error stage)
      | cancelling =>
          refine ⟨.dropGet, rfl, ?_⟩
          simp [State.next, getter]
      | absent | got _ | cancelled =>
          refine ⟨.raise, rfl, ?_⟩
          simp [State.next, stage, getter, Getter.isOver]
  | idle | completed | failed _ | closing =>
      rw [stage] at pulling
      cases pulling

/-- A pull ends once the run's outcome is published. -/
theorem Sound.pull_resolves (sound : state.Sound) (settled : state.future ≠ .pending) :
    iteration.Inevitable Event.isPullStep (fun now => now.iterator.isPulling = false)
      state := by
  refine @System.inevitable_of_rank _ _ iteration Event.isPullStep _
    (fun now => now.Sound ∧ now.future ≠ .pending) pullRank ?_ ?_ state ⟨sound, settled⟩
  · intro now holds unresolved
    apply holds.1.pullStep_possible holds.2
    cases pulling : now.iterator.isPulling with
    | true => rfl
    | false => exact absurd pulling unresolved
  · intro now event later holds own step
    obtain ⟨future, lower⟩ := pullStep_lowers own step
    refine ⟨⟨holds.1.next step, ?_⟩, lower⟩
    rw [future]
    exact holds.2

theorem coordinator_of_next {event : Event} (other : event.isCoordinatorStep = false)
    (step : state.next event = some after) :
    after.coordinator = state.coordinator ∧ after.future = state.future ∧
      (after.iterator.isTearingDown = false → state.iterator.isTearingDown = false) := by
  cases event with
  | reader stream move =>
      obtain ⟨_, step⟩ := Option.ite_none_right_eq_some.mp step
      obtain ⟨moved, _, same⟩ := Option.map_eq_some_iff.mp step
      cases same
      exact ⟨rfl, rfl, id⟩
  | pull | close =>
      obtain ⟨idle, step⟩ := Option.ite_none_right_eq_some.mp step
      cases step
      simp [idle, Iterator.isTearingDown]
  | dropGet =>
      obtain ⟨_, step⟩ := Option.ite_none_right_eq_some.mp step
      cases step
      exact ⟨rfl, rfl, id⟩
  | get =>
      simp only [next] at step
      split at step <;> cases step
      exact ⟨rfl, rfl, id⟩
  | wake =>
      obtain ⟨pulling, step⟩ := Option.ite_none_right_eq_some.mp step
      unfold wake at step
      have going : state.iterator.isTearingDown = false := by
        rw [pulling]
        rfl
      split at step <;> cases step
      · exact ⟨rfl, rfl, fun _ => going⟩
      · rename_i item _ _
        cases item <;> exact ⟨rfl, rfl, fun _ => going⟩
      · exact ⟨rfl, rfl, fun _ => going⟩
  | receive =>
      simp only [next] at step
      split at step
      · rename_i item awaiting _
        cases step
        cases item <;> simp [consume, awaiting, Iterator.isTearingDown]
      · cases step
  | raise =>
      simp only [next] at step
      split at step
      · rename_i error raising
        obtain ⟨_, step⟩ := Option.ite_none_right_eq_some.mp step
        cases step
        simp [raising, Iterator.isTearingDown]
      · cases step
  | cancelPull =>
      simp only [next] at step
      split at step <;> cases step
      all_goals simp [Iterator.isTearingDown]
  | spawned | exited | readerFailed | gathered | broken | tornDown | assembled | post =>
      cases other

/-- Unless the iterator tears down, the coordinator is not cancelled, and the failure
it ends with is published. -/
structure Answered (state : State) : Prop where
  sound : state.Sound
  uncancelled : state.iterator.isTearingDown = false →
    state.coordinator ≠ .tearingDown .cancelled ∧
      state.coordinator ≠ .ended (some .cancelled)
  published : ∀ name, state.coordinator = .ended (some (.error name)) →
    state.future = .failed (.error name)

namespace Answered

theorem goes (sound : after.Sound)
    (going : after.coordinator.isGoing = true ∨ after.coordinator = .ended none) :
    after.Answered where
  sound := sound
  uncancelled := by
    intro _
    rcases going with going | ended
    · constructor <;> intro stage <;> rw [stage] at going <;> cases going
    · simp [ended]
  published := by
    intro name ended
    rcases going with going | finished
    · rw [ended] at going
      cases going
    · cases finished.symm.trans ended

theorem tearDown {error : Raised} (sound : (state.tearDown error).Sound)
    (raised : state.iterator.isTearingDown = false → error ≠ .cancelled) :
    (state.tearDown error).Answered where
  sound := sound
  uncancelled := by
    intro going
    simpa [State.tearDown] using raised going
  published := by simp [State.tearDown]

theorem conclude (answered : state.Answered)
    (running : ∀ raised, state.coordinator ≠ .ended raised) (error : Raised)
    (raised : state.iterator.isTearingDown = false → error ≠ .cancelled) :
    (state.conclude error).Answered where
  sound := answered.sound.conclude running error
  uncancelled := by
    intro going
    simpa [State.conclude] using raised going
  published := by
    intro name ended
    have pending := answered.sound.pending running
    simp only [State.conclude, Coordinator.ended.injEq, Option.some.injEq] at ended
    simp [State.conclude, ended, pending]

theorem next {event : Event} (answered : state.Answered)
    (permitted : state.uncancelled event = true)
    (step : state.next event = some after) : after.Answered := by
  have sound := answered.sound.next step
  unfold State.uncancelled at permitted
  cases event with
  | spawned startHook =>
      obtain ⟨_, step⟩ := Option.ite_none_right_eq_some.mp step
      cases startHook with
      | none =>
          cases step
          exact goes sound (Or.inl rfl)
      | some error =>
          cases step
          apply tearDown sound
          intro going
          simpa [show state.iterator.isTearingDown = false from going] using permitted
  | exited | assembled =>
      obtain ⟨_, step⟩ := Option.ite_none_right_eq_some.mp step
      cases step
      exact goes sound (Or.inl rfl)
  | readerFailed stream =>
      simp only [State.next] at step
      split at step
      · obtain ⟨_, step⟩ := Option.ite_none_right_eq_some.mp step
        cases step
        exact tearDown sound fun _ => Raised.noConfusion
      · cases step
  | gathered =>
      obtain ⟨_, step⟩ := Option.ite_none_right_eq_some.mp step
      unfold State.gathered at step
      split at step
      · cases step
        exact goes sound (Or.inl rfl)
      · rename_i stdout _
        cases step
        apply tearDown sound
        intro going
        simp [going, readerCancelled, stdout] at permitted
      · rename_i _ stderr
        cases step
        apply tearDown sound
        intro going
        simp [going, readerCancelled, stderr] at permitted
      · rename_i stdout _
        cases step
        apply tearDown sound
        intro going
        simp [going, readerCancelled, stdout] at permitted
      · cases step
  | broken error =>
      have raised (going : state.iterator.isTearingDown = false) : error ≠ .cancelled := by
        simpa [going] using permitted
      cases stage : state.coordinator with
      | starting | assembling | posting =>
          simp only [State.next, stage, Option.some.injEq] at step
          cases step
          exact answered.conclude (by simp [stage]) error raised
      | awaitingExit | collecting =>
          simp only [State.next, stage, Option.some.injEq] at step
          cases step
          exact tearDown sound raised
      | tearingDown _ | ended _ => simp [State.next, stage] at step
  | tornDown worse =>
      cases stage : state.coordinator with
      | tearingDown error =>
          simp only [State.next, stage, Option.some.injEq] at step
          cases step
          apply answered.conclude (by simp [stage])
          intro going
          have earlier := (answered.uncancelled going).1
          cases worse with
          | none => simpa [stage] using earlier
          | some worse => simpa [going] using permitted
      | starting | awaitingExit | collecting | assembling | posting | ended _ =>
          simp [State.next, stage] at step
  | post =>
      obtain ⟨_, step⟩ := Option.ite_none_right_eq_some.mp step
      cases step
      exact goes sound (Or.inr rfl)
  | reader | pull | get | dropGet | wake | receive | raise | cancelPull | close =>
      obtain ⟨coordinator, future, tearing⟩ := coordinator_of_next rfl step
      exact {
        sound := sound
        uncancelled := by
          intro going
          rw [coordinator]
          exact answered.uncancelled (tearing going)
        published := by
          intro name ended
          rw [coordinator] at ended
          rw [future]
          exact answered.published name ended }

theorem initial : Answered {} where
  sound := .initial
  uncancelled := by simp
  published := by simp

theorem of_reachable (reachable : (iteration.guarded State.uncancelled).Reachable state) :
    state.Answered := by
  apply reachable.invariant initial
  intro now event later answered step
  obtain ⟨permitted, step⟩ := (iteration.guarded_next).mp step
  exact answered.next permitted step

theorem future_eq (answered : state.Answered) {raised : Option Raised}
    (going : state.iterator.isTearingDown = false)
    (ended : state.coordinator = .ended raised) : state.future = outcome raised := by
  cases raised with
  | none => exact (answered.sound.unsettled ended).1
  | some error =>
      cases error with
      | cancelled => exact absurd ended (answered.uncancelled going).2
      | error name => exact answered.published name ended

end Answered

theorem Sound.result_placed (sound : state.Sound) (resulted : state.future = .result)
    (going : state.iterator.isTearingDown = false) :
    .result ∈ state.queue ∨ state.getter = .got .result := by
  cases sound.delivery with
  | streaming _ _ unposted => exact absurd resulted unposted
  | posted lines queued => simp [queued]
  | received _ _ read => exact Or.inr read
  | completed _ _ _ completed =>
      rw [completed] at going
      cases going

end State

/-- While no cancellation but the iterator's own comes to the coordinator, the iterator
is not stranded: the coordinator ends with its outcome published, and every pull ends. -/
theorem lines_never_strands {state : State}
    (reachable : (iteration.guarded State.uncancelled).Reachable state)
    (going : state.iterator.isTearingDown = false) {raised : Option Raised}
    (ended : state.coordinator = .ended raised) :
    state.future = outcome raised ∧
    (raised = none → .result ∈ state.queue ∨ state.getter = .got .result) ∧
    iteration.Inevitable Event.isPullStep (fun now => now.iterator.isPulling = false)
      state ∧
    ∀ pulled, state.next .pull = some pulled →
      iteration.Inevitable Event.isPullStep (fun now => now.iterator.isPulling = false)
        pulled := by
  have answered := State.Answered.of_reachable reachable
  have future := answered.future_eq going ended
  have settled : state.future ≠ .pending := by
    rw [future]
    cases raised <;> exact ResultFuture.noConfusion
  refine ⟨future, ?_, answered.sound.pull_resolves settled, ?_⟩
  · intro returned
    subst returned
    exact answered.sound.result_placed future going
  · intro pulled step
    apply (answered.sound.next step).pull_resolves
    obtain ⟨_, same⟩ := Option.ite_none_right_eq_some.mp step
    cases same
    exact settled

section Examples

/-- The start hook raises. -/
def hookFails : List Event :=
  [.spawned (some (.error "hook")), .tornDown none]

def hookFailsState : State :=
  ((iteration.guarded State.uncancelled).exec {} hookFails).getD {}

theorem lines_never_strands_hook_fails :
    hookFailsState.future = .failed (.error "hook") ∧
      iteration.Inevitable Event.isPullStep (fun now => now.iterator.isPulling = false)
        hookFailsState :=
  have answered := @lines_never_strands hookFailsState ⟨hookFails, rfl⟩ rfl
    (some (.error "hook")) rfl
  ⟨answered.1, answered.2.2.1⟩

/-- The line hook raises `CancelledError` at the first line; the child exits, and the
gather of the readers raises it again. -/
def hookCancels : List Event :=
  [.spawned none, .reader .stdout (.offer "a"), .reader .stdout (.cancel false), .exited,
    .reader .stderr .finish, .gathered, .tornDown none]

def hookCancelsState : State := (iteration.exec {} hookCancels).getD {}

/-- The iterator waits, nothing is published, and no step is left to anybody but the
caller, who may give up the pull. -/
theorem lines_strands_its_iterator :
    iteration.Reachable hookCancelsState ∧
      hookCancelsState.coordinator = .ended (some .cancelled) ∧
      hookCancelsState.iterator = .pulling ∧ hookCancelsState.future = .pending ∧
      ∀ event, event ≠ .cancelPull → iteration.next hookCancelsState event = none := by
  refine ⟨⟨hookCancels, rfl⟩, rfl, rfl, rfl, ?_⟩
  intro event _
  cases event with
  | reader stream move => cases stream <;> cases move <;> rfl
  | readerFailed stream => cases stream <;> rfl
  | cancelPull => contradiction
  | spawned | exited | gathered | broken | tornDown | assembled | post | pull | get | dropGet
  | wake | receive | raise | close => rfl

end Examples

end Cuprum.LineStream
