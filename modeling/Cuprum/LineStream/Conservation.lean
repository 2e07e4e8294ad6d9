import Cuprum.LineStream.Run

namespace Cuprum.LineStream

open Cuprum.Transition

def QueueItem.line? : QueueItem → Option LineEvent
  | line event => some event
  | result => none

def linesOf (queue : List QueueItem) : List LineEvent :=
  queue.filterMap QueueItem.line?

def ofStream (stream : StreamName) (events : List LineEvent) : List LineEvent :=
  events.filter fun event => event.stream = stream

def Getter.lines : Getter → List LineEvent
  | got item => item.line?.toList
  | _ => []

/-- The run can still end normally. -/
def Coordinator.isGoing : Coordinator → Bool
  | starting | awaitingExit | collecting | assembling | posting => true
  | tearingDown _ | ended _ => false

@[simp] theorem linesOf_cons (item : QueueItem) (rest : List QueueItem) :
    linesOf (item :: rest) = item.line?.toList ++ linesOf rest := by
  cases item <;> rfl

@[simp] theorem linesOf_append (front back : List QueueItem) :
    linesOf (front ++ back) = linesOf front ++ linesOf back :=
  List.filterMap_append

@[simp] theorem linesOf_map_line (events : List LineEvent) :
    linesOf (events.map .line) = events := by
  induction events with
  | nil => rfl
  | cons event events induction => exact congrArg (event :: ·) induction

@[simp] theorem linesOf_result : linesOf [.result] = [] := rfl

theorem ofStream_append (stream : StreamName) (front back : List LineEvent) :
    ofStream stream (front ++ back) = ofStream stream front ++ ofStream stream back :=
  List.filter_append front back

theorem ofStream_self {stream : StreamName} {events : List LineEvent}
    (named : ∀ event ∈ events, event.stream = stream) : ofStream stream events = events := by
  apply List.filter_eq_self.mpr
  intro event member
  simp [named event member]

theorem ofStream_other {stream other : StreamName} {events : List LineEvent}
    (named : ∀ event ∈ events, event.stream = stream) (different : other ≠ stream) :
    ofStream other events = [] := by
  apply List.filter_eq_nil_iff.mpr
  intro event member
  simpa [named event member] using different.symm

/-- Where the lines and the result stand between the queue and the iterator. -/
inductive Delivery (queue : List QueueItem) (future : ResultFuture) (getter : Getter)
    (iterator : Iterator) : Prop
  | streaming (lines : List LineEvent) (queued : queue = lines.map .line)
      (unposted : future ≠ .result) (unread : getter ≠ .got .result)
      (uncompleted : iterator ≠ .completed)
  | posted (lines : List LineEvent) (queued : queue = lines.map .line ++ [.result])
      (resulted : future = .result) (unread : getter ≠ .got .result)
      (uncompleted : iterator ≠ .completed)
  | received (drained : queue = []) (resulted : future = .result)
      (read : getter = .got .result) (uncompleted : iterator ≠ .completed)
  | completed (drained : queue = []) (resulted : future = .result)
      (read : getter = .absent) (completed : iterator = .completed)

namespace State

def Finishing (state : State) : Prop :=
  state.coordinator = .assembling ∨ state.coordinator = .posting ∨ state.future = .result

/-- Every line accepted is yielded, in the getter's hand or in the queue. -/
structure Sound (state : State) : Prop where
  publishers : ∀ stream, (state.publishers stream).Sound stream state.settling
  recorded : ∀ stream,
    ofStream stream state.accepted = (state.publishers stream).enqueued
  bounded : state.queue.length ≤ lineQueueCapacity
  flow : state.accepted = state.yielded ++ state.getter.lines ++ linesOf state.queue
  pending : (∀ raised, state.coordinator ≠ .ended raised) → state.future = .pending
  going : state.coordinator.isGoing = true → state.settling = false
  resulted : state.future = .result → state.coordinator = .ended none
  unsettled : state.coordinator = .ended none →
    state.future = .result ∧ state.settling = false
  finished : state.Finishing → ∀ stream, (state.publishers stream).reader = .ended none
  delivery : Delivery state.queue state.future state.getter state.iterator
  idle : state.iterator = .idle → state.getter = .absent
  pulling : state.iterator = .pulling ∨ state.iterator = .awaitingGetter →
    state.getter = .waiting ∨ ∃ item, state.getter = .got item
  awaiting : state.iterator = .awaitingGetter → state.future = .result
  raising : ∀ error, state.iterator = .raising error ∨ state.iterator = .failed error →
    state.future = .failed error
  gaveUp : ∀ error, state.iterator = .raising error → state.getter ≠ .waiting

theorem Sound.initial : Sound {} where
  publishers := fun _ => .initial
  recorded := fun _ => rfl
  bounded := Nat.zero_le _
  flow := rfl
  pending := fun _ => rfl
  going := fun _ => rfl
  resulted := fun resulted => nomatch resulted
  unsettled := fun ended => nomatch ended
  finished := by
    intro finishing
    rcases finishing with stage | stage | stage <;> cases stage
  delivery := .streaming [] rfl (by simp) (by simp) (by simp)
  idle := fun idle => nomatch idle
  pulling := fun _ => Or.inl rfl
  awaiting := fun awaiting => nomatch awaiting
  raising := by simp
  gaveUp := by simp

variable {state after : State}

namespace Sound

theorem unended (going : state.coordinator.isGoing = true) (raised : Option Raised) :
    state.coordinator ≠ .ended raised := by
  intro ended
  rw [ended] at going
  cases going

/-- The coordinator goes on to another stage of a run that goes well. -/
theorem advance (sound : state.Sound) (coordinator : Coordinator)
    (before : state.coordinator.isGoing = true) (goes : coordinator.isGoing = true)
    (finished : coordinator = .assembling ∨ coordinator = .posting →
      ∀ stream, (state.publishers stream).reader = .ended none) :
    Sound { state with coordinator := coordinator } :=
  have future := sound.pending (unended before)
  { sound with
    pending := fun _ => future
    going := fun _ => sound.going before
    resulted := fun resulted => nomatch future.symm.trans resulted
    unsettled := by
      intro ended
      change coordinator = _ at ended
      rw [ended] at goes
      cases goes
    finished := by
      intro finishing
      rcases finishing with assembling | posting | resulted
      · exact finished (Or.inl assembling)
      · exact finished (Or.inr posting)
      · exact nomatch future.symm.trans resulted }

theorem tearDown (sound : state.Sound) (before : state.coordinator.isGoing = true)
    (error : Raised) : (state.tearDown error).Sound :=
  have future := sound.pending (unended before)
  { sound with
    publishers := fun stream => (sound.publishers stream).settled
    pending := fun _ => future
    going := fun going => nomatch going
    resulted := fun resulted => nomatch future.symm.trans resulted
    unsettled := fun ended => nomatch ended
    finished := by
      intro finishing
      rcases finishing with assembling | posting | resulted
      · cases assembling
      · cases posting
      · exact nomatch future.symm.trans resulted }

/-- The coordinator ends with a failure. -/
theorem conclude (sound : state.Sound)
    (running : ∀ raised, state.coordinator ≠ .ended raised) (error : Raised) :
    (state.conclude error).Sound := by
  have future := sound.pending running
  have unresulted : (state.conclude error).future ≠ .result := by
    unfold State.conclude
    rw [future]
    cases error <;> exact ResultFuture.noConfusion
  exact { sound with
    pending := fun pending => absurd rfl (pending (some error))
    going := fun going => nomatch going
    resulted := fun resulted => absurd resulted unresulted
    unsettled := fun ended => nomatch ended
    finished := by
      intro finishing
      rcases finishing with assembling | posting | resulted
      · cases assembling
      · cases posting
      · exact absurd resulted unresulted
    delivery := by
      cases sound.delivery with
      | streaming lines queued unposted unread uncompleted =>
          exact .streaming lines queued unresulted unread uncompleted
      | posted _ _ resulted | received _ resulted | completed _ resulted =>
          cases future.symm.trans resulted
    awaiting := fun awaiting => nomatch future.symm.trans (sound.awaiting awaiting)
    raising := fun name raising => nomatch future.symm.trans (sound.raising name raising) }

theorem post (sound : state.Sound) (stage : state.coordinator = .posting)
    (roomy : state.room = true) :
    Sound { state with
      queue := state.queue ++ [.result], future := .result, coordinator := .ended none } := by
  have before : state.coordinator.isGoing = true := by
    rw [stage]
    rfl
  have future := sound.pending (unended before)
  have finished := sound.finished (Or.inr (Or.inl stage))
  exact { sound with
    bounded := by
      simp only [State.room, decide_eq_true_eq] at roomy
      change (state.queue ++ [QueueItem.result]).length ≤ _
      rw [List.length_append]
      exact roomy
    flow := by
      change state.accepted =
        state.yielded ++ state.getter.lines ++ linesOf (state.queue ++ [.result])
      rw [linesOf_append, linesOf_result, List.append_nil]
      exact sound.flow
    pending := fun pending => absurd rfl (pending none)
    going := fun going => nomatch going
    resulted := fun _ => rfl
    unsettled := fun _ => ⟨rfl, sound.going before⟩
    finished := fun _ => finished
    delivery := by
      cases sound.delivery with
      | streaming lines queued unposted unread uncompleted =>
          exact .posted lines (congrArg (· ++ _) queued) rfl unread uncompleted
      | posted _ _ resulted | received _ resulted | completed _ resulted =>
          cases future.symm.trans resulted
    awaiting := fun _ => rfl
    raising := fun name raising => nomatch future.symm.trans (sound.raising name raising) }

/-- A step of a reader or of its put task. -/
theorem read (sound : state.Sound) {stream : StreamName} {publisher : Publisher}
    {line : Option LineEvent}
    (step : (state.publishers stream).Moves stream state.settling state.room publisher line) :
    (state.read stream publisher line).Sound := by
  have moved := (sound.publishers stream).moves step
  obtain ⟨enqueued, roomy⟩ := step.enqueued
  have unfinished : ¬ state.Finishing := by
    intro finishing
    exact step.not_ended (sound.publishers stream) none (sound.finished finishing stream)
  have named : ∀ event ∈ line.toList, event.stream = stream := by
    intro event member
    apply moved.enqueued_named
    rw [enqueued]
    exact List.mem_append_right _ member
  exact { sound with
    publishers := by
      intro other
      by_cases same : other = stream
      · subst same
        simp only [State.read, Function.update_self]
        exact moved
      · simp only [State.read, Function.update_of_ne same]
        exact sound.publishers other
    recorded := by
      intro other
      change ofStream other (state.accepted ++ line.toList) = _
      rw [ofStream_append, sound.recorded]
      by_cases same : other = stream
      · subst same
        simp only [State.read, Function.update_self]
        rw [ofStream_self named, enqueued]
      · simp only [State.read, Function.update_of_ne same]
        rw [ofStream_other named same, List.append_nil]
    bounded := by
      change (state.queue ++ line.toList.map QueueItem.line).length ≤ _
      cases line with
      | none => simpa using sound.bounded
      | some event =>
          have room : state.queue.length < lineQueueCapacity := by
            simpa [State.room] using roomy rfl
          rw [List.length_append]
          exact room
    flow := by
      change state.accepted ++ line.toList =
        state.yielded ++ state.getter.lines ++ linesOf (state.queue ++ line.toList.map QueueItem.line)
      rw [linesOf_append, linesOf_map_line, ← List.append_assoc, ← sound.flow]
    finished := fun finishing => absurd finishing unfinished
    delivery := by
      cases sound.delivery with
      | streaming lines queued unposted unread uncompleted =>
          apply Delivery.streaming (lines ++ line.toList) _ unposted unread uncompleted
          change state.queue ++ line.toList.map QueueItem.line = _
          rw [queued, List.map_append]
      | posted _ _ resulted | received _ resulted | completed _ resulted =>
          exact absurd (Or.inr (Or.inr resulted)) unfinished }

/-- The getter takes the first item of the queue. -/
theorem get (sound : state.Sound) {item : QueueItem} {rest : List QueueItem}
    (waiting : state.getter = .waiting) (queued : state.queue = item :: rest) :
    Sound { state with getter := .got item, queue := rest } := by
  exact { sound with
    bounded := by
      have bounded := sound.bounded
      rw [queued] at bounded
      exact Nat.le_of_succ_le bounded
    flow := by
      have flow := sound.flow
      rw [waiting, queued] at flow
      rw [flow]
      cases item <;> simp [Getter.lines, QueueItem.line?]
    delivery := by
      cases sound.delivery with
      | streaming lines same unposted unread uncompleted =>
          cases lines with
          | nil => cases queued.symm.trans same
          | cons line lines =>
              cases queued.symm.trans same
              exact .streaming lines rfl unposted (by simp) uncompleted
      | posted lines same resulted unread uncompleted =>
          cases lines with
          | nil =>
              cases queued.symm.trans same
              exact .received rfl resulted rfl uncompleted
          | cons line lines =>
              cases queued.symm.trans same
              exact .posted lines rfl resulted (by simp) uncompleted
      | received drained | completed drained => cases queued.symm.trans drained
    idle := fun idle => nomatch waiting.symm.trans (sound.idle idle)
    pulling := fun _ => Or.inr ⟨item, rfl⟩
    gaveUp := fun _ _ => Getter.noConfusion }

/-- The iterator takes the item its getter brings. -/
theorem consume (sound : state.Sound) {item : QueueItem}
    (got : state.getter = .got item) : (state.consume item).Sound := by
  have flow := sound.flow
  rw [got] at flow
  cases item with
  | line event =>
      exact { sound with
        flow := by simpa [State.consume, Getter.lines, QueueItem.line?] using flow
        delivery := by
          cases sound.delivery with
          | streaming lines queued unposted unread uncompleted =>
              exact .streaming lines queued unposted (by simp [State.consume])
                (by simp [State.consume])
          | posted lines queued resulted unread uncompleted =>
              exact .posted lines queued resulted (by simp [State.consume])
                (by simp [State.consume])
          | received _ _ read | completed _ _ read => cases got.symm.trans read
        idle := fun _ => rfl
        pulling := by simp [State.consume]
        awaiting := by simp [State.consume]
        raising := by simp [State.consume]
        gaveUp := by simp [State.consume] }
  | result =>
      exact { sound with
        flow := by simpa [State.consume, Getter.lines, QueueItem.line?] using flow
        delivery := by
          cases sound.delivery with
          | streaming _ _ _ unread | posted _ _ _ unread => exact absurd got unread
          | received drained resulted => exact .completed drained resulted rfl rfl
          | completed _ _ read => cases got.symm.trans read
        idle := by simp [State.consume]
        pulling := by simp [State.consume]
        awaiting := by simp [State.consume]
        raising := by simp [State.consume]
        gaveUp := by simp [State.consume] }

/-- The pull is given up, its getter cancelled. -/
theorem giveUp (sound : state.Sound) (iterator : Iterator)
    (uncompleted : state.iterator ≠ .completed)
    (gives : iterator = .closing ∨
      ∃ error, iterator = .raising error ∧ state.future = .failed error) :
    Sound { state with getter := state.getter.cancel, iterator := iterator } := by
  have lines : state.getter.cancel.lines = state.getter.lines := by
    cases state.getter <;> rfl
  have unread : state.getter ≠ .got .result → state.getter.cancel ≠ .got .result := by
    cases state.getter <;> simp [Getter.cancel]
  have given : iterator ≠ .idle ∧ iterator ≠ .pulling ∧ iterator ≠ .awaitingGetter ∧
      iterator ≠ .completed := by
    rcases gives with closing | ⟨error, raising, _⟩
    · simp [closing]
    · simp [raising]
  exact { sound with
    flow := by
      change _ = state.yielded ++ state.getter.cancel.lines ++ _
      rw [lines]
      exact sound.flow
    delivery := by
      cases sound.delivery with
      | streaming lines queued unposted unreceived _ =>
          exact .streaming lines queued unposted (unread unreceived) given.2.2.2
      | posted lines queued resulted unreceived _ =>
          exact .posted lines queued resulted (unread unreceived) given.2.2.2
      | received drained resulted read _ =>
          apply Delivery.received drained resulted _ given.2.2.2
          change state.getter.cancel = _
          rw [read]
          rfl
      | completed _ _ _ completed => exact absurd completed uncompleted
    idle := fun idle => absurd idle given.1
    pulling := by
      intro pulls
      rcases pulls with pulling | awaiting
      · exact absurd pulling given.2.1
      · exact absurd awaiting given.2.2.1
    awaiting := fun awaiting => absurd awaiting given.2.2.1
    raising := by
      intro name raises
      rcases gives with closing | ⟨error, raising, failed⟩
      · simp [closing] at raises
      · simp only [raising, Iterator.raising.injEq, reduceCtorEq, or_false] at raises
        rw [← raises]
        exact failed
    gaveUp := fun _ _ => by
      change state.getter.cancel ≠ .waiting
      cases state.getter <;> simp [Getter.cancel] }

theorem dropGet (sound : state.Sound) (cancelling : state.getter = .cancelling) :
    Sound { state with getter := .cancelled } := by
  have flow := sound.flow
  rw [cancelling] at flow
  exact { sound with
    flow := flow
    delivery := by
      cases sound.delivery with
      | streaming lines queued unposted _ uncompleted =>
          exact .streaming lines queued unposted (by simp) uncompleted
      | posted lines queued resulted _ uncompleted =>
          exact .posted lines queued resulted (by simp) uncompleted
      | received _ _ read | completed _ _ read => cases cancelling.symm.trans read
    idle := fun idle => nomatch cancelling.symm.trans (sound.idle idle)
    pulling := by
      intro pulls
      rcases sound.pulling pulls with waiting | ⟨item, got⟩
      · cases cancelling.symm.trans waiting
      · cases cancelling.symm.trans got
    gaveUp := fun _ _ => Getter.noConfusion }

theorem pull (sound : state.Sound) (idle : state.iterator = .idle) :
    Sound { state with getter := .waiting, iterator := .pulling } := by
  have flow := sound.flow
  rw [sound.idle idle] at flow
  exact { sound with
    flow := flow
    delivery := by
      cases sound.delivery with
      | streaming lines queued unposted =>
          exact .streaming lines queued unposted (by simp) (by simp)
      | posted lines queued resulted => exact .posted lines queued resulted (by simp) (by simp)
      | received _ _ read => cases (sound.idle idle).symm.trans read
      | completed _ _ _ completed => cases idle.symm.trans completed
    idle := fun idle => nomatch idle
    pulling := fun _ => Or.inl rfl
    awaiting := fun awaiting => nomatch awaiting
    raising := by simp
    gaveUp := by simp }

theorem wake (sound : state.Sound) (pulling : state.iterator = .pulling)
    (step : state.wake = some after) : after.Sound := by
  unfold State.wake at step
  have uncompleted : state.iterator ≠ .completed := by simp [pulling]
  split at step
  · rename_i error future
    cases step
    exact sound.giveUp _ uncompleted (Or.inr ⟨error, rfl, future⟩)
  · rename_i item got _
    cases step
    exact sound.consume got
  · rename_i future unread
    cases step
    have waiting : state.getter = .waiting := by
      rcases sound.pulling (Or.inl pulling) with waiting | ⟨item, got⟩
      · exact waiting
      · exact absurd got (unread item)
    exact { sound with
      delivery := by
        cases sound.delivery with
        | streaming _ _ unposted => exact absurd future unposted
        | posted lines queued resulted _ _ =>
            exact .posted lines queued resulted (unread .result) (by simp)
        | received _ _ read => exact absurd read (unread .result)
        | completed _ _ _ completed => exact absurd completed uncompleted
      idle := fun idle => nomatch idle
      pulling := fun _ => Or.inl waiting
      awaiting := fun _ => future
      raising := by simp
      gaveUp := by simp }
  · cases step

/-- The iterator ends, with nothing more in its hand than it had. -/
theorem finish (sound : state.Sound) (iterator : Iterator)
    (uncompleted : state.iterator ≠ .completed)
    (ends : iterator = .closing ∨ ∃ error, iterator = .failed error ∧
      state.iterator = .raising error) :
    Sound { state with iterator := iterator } := by
  have ended : iterator ≠ .idle ∧ iterator ≠ .pulling ∧ iterator ≠ .awaitingGetter ∧
      iterator ≠ .completed := by
    rcases ends with closing | ⟨error, failed, _⟩
    · simp [closing]
    · simp [failed]
  exact { sound with
    delivery := by
      cases sound.delivery with
      | streaming lines queued unposted unread _ =>
          exact .streaming lines queued unposted unread ended.2.2.2
      | posted lines queued resulted unread _ =>
          exact .posted lines queued resulted unread ended.2.2.2
      | received drained resulted read _ =>
          exact .received drained resulted read ended.2.2.2
      | completed _ _ _ completed => exact absurd completed uncompleted
    idle := fun idle => absurd idle ended.1
    pulling := by
      intro pulls
      rcases pulls with pulling | awaiting
      · exact absurd pulling ended.2.1
      · exact absurd awaiting ended.2.2.1
    awaiting := fun awaiting => absurd awaiting ended.2.2.1
    raising := by
      intro name raises
      rcases ends with closing | ⟨error, failed, raising⟩
      · simp [closing] at raises
      · simp only [failed, reduceCtorEq, Iterator.failed.injEq, false_or] at raises
        rw [← raises]
        exact sound.raising error (Or.inl raising)
    gaveUp := by
      rcases ends with closing | ⟨error, failed, _⟩
      · simp [closing]
      · simp [failed] }

theorem gathered (sound : state.Sound) (stage : state.coordinator = .collecting)
    (step : state.gathered = some after) : after.Sound := by
  have going : state.coordinator.isGoing = true := by
    rw [stage]
    rfl
  unfold State.gathered at step
  split at step
  · rename_i stdout stderr
    cases step
    apply sound.advance _ going rfl
    intro _ stream
    cases stream with
    | stdout => exact stdout
    | stderr => exact stderr
  · cases step
    exact sound.tearDown going _
  · cases step
    exact sound.tearDown going _
  · cases step
    exact sound.tearDown going _
  · cases step

theorem next {event : Event} (sound : state.Sound) (step : state.next event = some after) :
    after.Sound := by
  have going {stage : Coordinator} (now : state.coordinator = stage)
      (goes : stage.isGoing = true) : state.coordinator.isGoing = true :=
    (congrArg Coordinator.isGoing now).trans goes
  cases event with
  | reader stream event =>
      obtain ⟨_, step⟩ := Option.ite_none_right_eq_some.mp step
      obtain ⟨⟨publisher, line⟩, moved, same⟩ := Option.map_eq_some_iff.mp step
      cases same
      exact sound.read (Publisher.moves_of_next moved)
  | spawned startHook =>
      obtain ⟨stage, step⟩ := Option.ite_none_right_eq_some.mp step
      have before := going stage rfl
      cases startHook with
      | none =>
          cases step
          have moved := sound.advance .awaitingExit before rfl (by simp)
          exact { moved with }
      | some error =>
          cases step
          have moved := sound.tearDown before error
          exact { moved with }
  | exited =>
      obtain ⟨stage, step⟩ := Option.ite_none_right_eq_some.mp step
      cases step
      exact sound.advance .collecting (going stage rfl) rfl (by simp)
  | readerFailed stream =>
      simp only [State.next] at step
      split at step
      · obtain ⟨stage, step⟩ := Option.ite_none_right_eq_some.mp step
        cases step
        exact sound.tearDown (going stage rfl) _
      · cases step
  | gathered =>
      obtain ⟨stage, step⟩ := Option.ite_none_right_eq_some.mp step
      exact sound.gathered stage step
  | broken error =>
      cases stage : state.coordinator with
      | starting | assembling | posting =>
          simp only [State.next, stage, Option.some.injEq] at step
          cases step
          exact sound.conclude (unended (going stage rfl)) error
      | awaitingExit | collecting =>
          simp only [State.next, stage, Option.some.injEq] at step
          cases step
          exact sound.tearDown (going stage rfl) error
      | tearingDown _ | ended _ => simp [State.next, stage] at step
  | tornDown worse =>
      cases stage : state.coordinator with
      | tearingDown error =>
          simp only [State.next, stage, Option.some.injEq] at step
          cases step
          exact sound.conclude (by simp [stage]) _
      | starting | awaitingExit | collecting | assembling | posting | ended _ =>
          simp [State.next, stage] at step
  | assembled =>
      obtain ⟨stage, step⟩ := Option.ite_none_right_eq_some.mp step
      cases step
      apply sound.advance .posting (going stage rfl) rfl
      intro _
      exact sound.finished (Or.inl stage)
  | post =>
      obtain ⟨⟨stage, roomy⟩, step⟩ := Option.ite_none_right_eq_some.mp step
      cases step
      exact sound.post stage roomy
  | pull =>
      obtain ⟨idle, step⟩ := Option.ite_none_right_eq_some.mp step
      cases step
      exact sound.pull idle
  | get =>
      simp only [State.next] at step
      split at step
      · rename_i waiting queued
        cases step
        exact sound.get waiting queued
      · cases step
  | dropGet =>
      obtain ⟨cancelling, step⟩ := Option.ite_none_right_eq_some.mp step
      cases step
      exact sound.dropGet cancelling
  | wake =>
      obtain ⟨pulling, step⟩ := Option.ite_none_right_eq_some.mp step
      exact sound.wake pulling step
  | receive =>
      simp only [State.next] at step
      split at step
      · rename_i got
        cases step
        exact sound.consume got
      · cases step
  | raise =>
      simp only [State.next] at step
      split at step
      · rename_i error raising
        obtain ⟨_, step⟩ := Option.ite_none_right_eq_some.mp step
        cases step
        exact sound.finish _ (by simp [raising]) (Or.inr ⟨error, rfl, raising⟩)
      · cases step
  | cancelPull =>
      cases stage : state.iterator with
      | pulling | awaitingGetter | raising _ =>
          simp only [State.next, stage, Option.some.injEq] at step
          cases step
          exact sound.giveUp _ (by simp [stage]) (Or.inl rfl)
      | idle | completed | failed _ | closing => simp [State.next, stage] at step
  | close =>
      obtain ⟨idle, step⟩ := Option.ite_none_right_eq_some.mp step
      cases step
      exact sound.finish _ (by simp [idle]) (Or.inl rfl)

end Sound

theorem Sound.of_reachable (reachable : iteration.Reachable state) : state.Sound :=
  reachable.invariant .initial fun sound step => sound.next step

end State

end Cuprum.LineStream
