import Cuprum.LineStream.Conservation

namespace Cuprum.LineStream

open Cuprum.Transition

namespace Publisher.Sound

variable {publisher : Publisher} {stream : StreamName} {settling : Bool}

theorem offered_nodup (sound : publisher.Sound stream settling) :
    publisher.offered.Nodup := by
  apply List.Nodup.of_map LineEvent.number
  rw [sound.numbered]
  exact List.nodup_range

theorem begun_nodup (sound : publisher.Sound stream settling) : publisher.begun.Nodup :=
  sound.offered_nodup.sublist sound.offers.sublist

theorem enqueued_prefix (sound : publisher.Sound stream settling) :
    publisher.enqueued <+: publisher.begun := by
  rw [sound.account, List.append_assoc]
  exact List.prefix_append _ _

/-- A reader that comes to its end before the run settles has put every line of its
stream in the queue. -/
theorem enqueued_of_ended (sound : publisher.Sound stream false)
    (ended : publisher.reader = .ended none) :
    publisher.enqueued = publisher.offered ∧ publisher.begun = publisher.offered := by
  have unshut : ¬ publisher.Shut false := by simp [Shut, ended]
  obtain ⟨offered, kept⟩ := sound.whole unshut
  have begun : publisher.begun = publisher.offered := by
    rw [offered]
    simp [delivering, ended]
  have account := sound.account
  rw [kept, sound.quiet (Or.inr (Or.inr ⟨none, ended⟩))] at account
  refine ⟨?_, begun⟩
  rw [← begun, account]
  simp

end Publisher.Sound

namespace State

variable {state after : State}

namespace Sound

theorem yielded_prefix (sound : state.Sound) (stream : StreamName) :
    ofStream stream state.yielded <+: (state.publishers stream).enqueued := by
  rw [← sound.recorded, sound.flow, List.append_assoc, ofStream_append]
  exact List.prefix_append _ _

theorem yielded_of_completed (sound : state.Sound) (completed : state.iterator = .completed)
    (stream : StreamName) :
    ofStream stream state.yielded = (state.publishers stream).enqueued := by
  have flow := sound.flow
  cases sound.delivery with
  | streaming _ _ _ _ uncompleted | posted _ _ _ _ uncompleted
  | received _ _ _ uncompleted => exact absurd completed uncompleted
  | completed drained _ read =>
      rw [drained, read] at flow
      rw [← sound.recorded, flow]
      simp [Getter.lines, linesOf]

end Sound

theorem exec_pull (item : QueueItem) (rest : List QueueItem)
    (idle : state.iterator = .idle) (resulted : state.future = .result)
    (queued : state.queue = item :: rest) :
    iteration.exec state [.pull, .get, .wake] =
      some (({ state with getter := .got item, queue := rest, iterator := .pulling }
        : State).consume item) := by
  have pulled : iteration.next state .pull =
      some { state with getter := .waiting, iterator := .pulling } := if_pos idle
  simp only [System.exec, pulled, Option.bind_some]
  simp [iteration, State.next, State.wake, queued, resulted]

/-- Once the result is posted, the caller's pulls come to the end. -/
theorem exec_drain (lines : List LineEvent) (idle : state.iterator = .idle)
    (resulted : state.future = .result)
    (queued : state.queue = lines.map .line ++ [.result]) :
    ∃ events, (∀ event ∈ events, event = .pull ∨ event = .get ∨ event = .wake) ∧
      ∃ last, iteration.exec state events = some last ∧ last.iterator = .completed := by
  induction lines generalizing state with
  | nil =>
      refine ⟨[.pull, .get, .wake], by simp, _, exec_pull .result [] idle resulted queued, rfl⟩
  | cons line lines induction =>
      have pulled := exec_pull (.line line) _ idle resulted queued
      obtain ⟨events, own, last, runs, completed⟩ :=
        @induction (({ state with
          getter := .got (.line line)
          queue := lines.map .line ++ [.result]
          iterator := .pulling } : State).consume (.line line)) rfl resulted rfl
      refine ⟨[.pull, .get, .wake] ++ events, ?_, last, ?_, completed⟩
      · intro event member
        rcases List.mem_append.mp member with first | later
        · simpa using first
        · exact own event later
      · rw [System.exec_append, pulled]
        exact runs

/-- Only a reader's step moves a publisher. -/
theorem publishers_of_next {event : Event}
    (unread : ∀ stream move, event ≠ .reader stream move)
    (step : state.next event = some after) :
    after.publishers = state.publishers ∧
      (state.settling = true → after.settling = true) := by
  cases event with
  | reader stream move => exact absurd rfl (unread stream move)
  | spawned startHook =>
      obtain ⟨_, step⟩ := Option.ite_none_right_eq_some.mp step
      cases startHook <;> cases step
      · exact ⟨rfl, id⟩
      · exact ⟨rfl, fun _ => rfl⟩
  | exited | assembled | post | pull | dropGet | close =>
      obtain ⟨_, step⟩ := Option.ite_none_right_eq_some.mp step
      cases step
      exact ⟨rfl, id⟩
  | readerFailed stream =>
      simp only [next] at step
      split at step
      · obtain ⟨_, step⟩ := Option.ite_none_right_eq_some.mp step
        cases step
        exact ⟨rfl, fun _ => rfl⟩
      · cases step
  | gathered =>
      obtain ⟨_, step⟩ := Option.ite_none_right_eq_some.mp step
      unfold gathered at step
      split at step <;> cases step
      · exact ⟨rfl, id⟩
      all_goals exact ⟨rfl, fun _ => rfl⟩
  | broken error =>
      simp only [next] at step
      split at step <;> cases step
      · exact ⟨rfl, id⟩
      · exact ⟨rfl, id⟩
      · exact ⟨rfl, id⟩
      all_goals exact ⟨rfl, fun _ => rfl⟩
  | tornDown worse =>
      simp only [next] at step
      split at step <;> cases step
      exact ⟨rfl, id⟩
  | get =>
      simp only [next] at step
      split at step <;> cases step
      exact ⟨rfl, id⟩
  | wake =>
      obtain ⟨_, step⟩ := Option.ite_none_right_eq_some.mp step
      unfold wake at step
      split at step <;> cases step
      · exact ⟨rfl, id⟩
      · rename_i item _ _
        cases item <;> exact ⟨rfl, id⟩
      · exact ⟨rfl, id⟩
  | receive =>
      simp only [next] at step
      split at step <;> cases step
      rename_i item _ _
      cases item <;> exact ⟨rfl, id⟩
  | raise =>
      simp only [next] at step
      split at step
      · obtain ⟨_, step⟩ := Option.ite_none_right_eq_some.mp step
        cases step
        exact ⟨rfl, id⟩
      · cases step
  | cancelPull =>
      simp only [next] at step
      split at step <;> cases step
      all_goals exact ⟨rfl, id⟩

theorem begun_of_settling (settled : state.settling = true) {event : Event}
    (step : state.next event = some after) :
    after.settling = true ∧
      ∀ stream, (after.publishers stream).begun = (state.publishers stream).begun := by
  by_cases reads : ∃ stream move, event = .reader stream move
  · obtain ⟨stream, move, rfl⟩ := reads
    obtain ⟨_, step⟩ := Option.ite_none_right_eq_some.mp step
    obtain ⟨⟨publisher, line⟩, moved, same⟩ := Option.map_eq_some_iff.mp step
    cases same
    refine ⟨settled, ?_⟩
    intro other
    simp only [read]
    by_cases same : other = stream
    · subst same
      rw [Function.update_self]
      rw [settled] at moved
      exact (Publisher.moves_of_next moved).begun
    · rw [Function.update_of_ne same]
  · have unread : ∀ stream move, event ≠ .reader stream move := by
      intro stream move reader
      exact reads ⟨stream, move, reader⟩
    obtain ⟨publishers, settling⟩ := publishers_of_next unread step
    refine ⟨settling settled, ?_⟩
    rw [publishers]
    exact fun _ => rfl

theorem begun_of_exec {events : List Event} (settled : state.settling = true)
    (runs : iteration.exec state events = some after) (stream : StreamName) :
    (after.publishers stream).begun = (state.publishers stream).begun := by
  have kept : after.settling = true ∧
      ∀ stream, (after.publishers stream).begun = (state.publishers stream).begun := by
    refine @System.exec_invariant _ _ iteration
      (fun now => now.settling = true ∧
        ∀ stream, (now.publishers stream).begun = (state.publishers stream).begun)
      ?_ state after events ⟨settled, fun _ => rfl⟩ runs
    intro now event later holds step
    obtain ⟨settling, begun⟩ := begun_of_settling holds.1 step
    exact ⟨settling, fun stream => (begun stream).trans (holds.2 stream)⟩
  exact kept.2 stream

end State

/-- Line iteration neither loses, duplicates nor reorders lines: `offered` are the
lines of a stream as its reader decodes them, `begun` those published. -/
theorem line_iteration_in_order {state : State} (reachable : iteration.Reachable state) :
    state.queue.length ≤ lineQueueCapacity ∧
    (∀ stream,
      (state.publishers stream).offered.map LineEvent.number =
        List.range (state.publishers stream).offered.length ∧
      (state.publishers stream).begun <+: (state.publishers stream).offered ∧
      ofStream stream state.yielded <+: (state.publishers stream).begun ∧
      (state.publishers stream).begun =
        (state.publishers stream).enqueued ++ (state.publishers stream).put.held ++
          (state.publishers stream).abandoned ∧
      (state.publishers stream).begun.Nodup ∧
      ∀ raised, (state.publishers stream).reader = .ended raised →
        (state.publishers stream).put.held = []) ∧
    (state.iterator = .completed → state.future = .result ∧ state.queue = [] ∧
      ∀ stream, ofStream stream state.yielded = (state.publishers stream).begun ∧
        (state.publishers stream).begun = (state.publishers stream).offered) ∧
    (state.future = .result → state.iterator = .idle →
      ∃ events, (∀ event ∈ events, event = .pull ∨ event = .get ∨ event = .wake) ∧
        ∃ last, iteration.exec state events = some last ∧ last.iterator = .completed) ∧
    (state.settling = true → ∀ events later, iteration.exec state events = some later →
      ∀ stream, (later.publishers stream).begun = (state.publishers stream).begun) := by
  have sound := State.Sound.of_reachable reachable
  refine ⟨sound.bounded, ?_, ?_, ?_, ?_⟩
  · intro stream
    have publisher := sound.publishers stream
    refine ⟨publisher.numbered, publisher.offers, ?_, publisher.account,
      publisher.begun_nodup, ?_⟩
    · exact (sound.yielded_prefix stream).trans publisher.enqueued_prefix
    · intro raised ended
      exact publisher.quiet (Or.inr (Or.inr ⟨raised, ended⟩))
  · intro completed
    cases sound.delivery with
    | streaming _ _ _ _ uncompleted | posted _ _ _ _ uncompleted
    | received _ _ _ uncompleted => exact absurd completed uncompleted
    | completed drained resulted =>
        refine ⟨resulted, drained, ?_⟩
        intro stream
        have publisher := sound.publishers stream
        rw [(sound.unsettled (sound.resulted resulted)).2] at publisher
        obtain ⟨enqueued, begun⟩ :=
          publisher.enqueued_of_ended (sound.finished (Or.inr (Or.inr resulted)) stream)
        rw [sound.yielded_of_completed completed stream, enqueued, begun]
        exact ⟨rfl, rfl⟩
  · intro resulted idle
    cases sound.delivery with
    | posted lines queued => exact State.exec_drain lines idle resulted queued
    | streaming _ _ unposted => exact absurd resulted unposted
    | received _ _ read => cases (sound.idle idle).symm.trans read
    | completed _ _ _ completed => cases idle.symm.trans completed
  · intro settled events later runs stream
    exact State.begun_of_exec settled runs stream

section Example

def twoLines : List Event :=
  [.spawned none, .reader .stdout (.offer "a"), .reader .stderr (.offer "b"),
    .reader .stderr .publish, .reader .stdout .publish, .get, .wake, .exited,
    .reader .stdout .finish, .reader .stderr .finish, .gathered, .assembled, .post,
    .pull, .get, .wake, .pull, .get, .wake]

def twoLinesState : State := (iteration.exec {} twoLines).getD {}

theorem line_iteration_in_order_two_lines :
    iteration.Reachable twoLinesState ∧
      twoLinesState.yielded = [⟨.stderr, 0, "b"⟩, ⟨.stdout, 0, "a"⟩] ∧
      twoLinesState.future = .result ∧ twoLinesState.queue = [] :=
  have completed := (@line_iteration_in_order twoLinesState ⟨twoLines, rfl⟩).2.2.1 rfl
  ⟨⟨twoLines, rfl⟩, rfl, completed.1, completed.2.1⟩

end Example

end Cuprum.LineStream
