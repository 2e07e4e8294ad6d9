import Cuprum.Concurrent.Completing

namespace Cuprum.Concurrent

open Semaphore Transition

variable {ρ ε : Type} {count : Nat} {config : ConcurrentConfig count} {ok : ρ → Bool}

/-- Commands that fail fast, one at a time. -/
def oneByOne (count : Nat) : ConcurrentConfig count where
  concurrency := some 1
  failFast := true
  order := List.finRange count
  positive := by
    intro limit limits
    cases limits
    exact Nat.le_refl _
  complete := List.mem_finRange

namespace Loop

variable {events : List (Event ρ ε count)} {self final : Loop ρ ε count} {idx : Fin count}

/-- No more commands are underway than the limit, a permit is never lost, nobody waits for
one that is free unless someone woken sees to it, and commands start in the order they were
submitted in. -/
theorem runs_within_limit
    (runs : (config.system ok).exec config.loop events = some self) :
    (∀ limit ∈ config.concurrency, ∃ semaphore, self.semaphore = some semaphore ∧
      self.underway.length + (woken semaphore.waiters).length + semaphore.value = limit ∧
      (semaphore.value = 0 ∨ (∀ waiter ∈ semaphore.waiters, waiter.2 ≠ .pending) ∨
        woken semaphore.waiters ≠ [])) ∧
    self.started.Pairwise (· < ·) ∧
    (∀ earlier ∈ self.started, ∀ later ∈ hopeful self.waiters ++ firsts self.ready,
      earlier < later) := by
  have sound := sound_of_exec runs
  obtain ⟨started, _, across⟩ := List.pairwise_append.mp sound.kept.ascends
  refine ⟨?_, started, across⟩
  intro limit limits
  obtain ⟨semaphore, some⟩ := sound.kept.semaphore_of limits
  have permits := sound.kept.permits limit limits semaphore some
  exact ⟨semaphore, some, by omega, sound.prompt semaphore some⟩

theorem runs_within_limit_waiting : ∃ self : Loop Bool Unit 3,
    ((oneByOne 3).system id).exec (oneByOne 3).loop [.turn, .turn, .turn] = some self ∧
      hopeful self.waiters = [1, 2] ∧
      ∃ semaphore, self.semaphore = some semaphore ∧
        self.underway.length + (woken semaphore.waiters).length + semaphore.value = 1 :=
  ⟨_, rfl, rfl, by
    obtain ⟨semaphore, some, permits, _⟩ :=
      (@runs_within_limit Bool Unit 3 (oneByOne 3) id [.turn, .turn, .turn] _ rfl).1 1 rfl
    exact ⟨semaphore, some, permits⟩⟩

/-- A run comes to its end, whatever its commands and its caller do: a loop with nothing
left to do has settled every task and has all its permits back. -/
theorem completes
    (runs : (config.system ok).exec config.loop events = some final) :
    events.length ≤ 4 * count + 2 * events.countP Event.cancels ∧
    (final.ready = [] → final.underway = [] →
      final.settled.Perm (List.finRange count) ∧
      (∃ tasks : Completions ρ ε count, tasks.completions =
        final.completions.map fun completion => (completion.1.val, completion.2)) ∧
      (∀ limit ∈ config.concurrency, final.semaphore = some ⟨limit, []⟩)) := by
  have bounded := work_of_exec runs
  refine ⟨by omega, fun idle done => ?_⟩
  have sound := sound_of_exec runs
  obtain ⟨ended, settled⟩ := sound.complete idle done
  refine ⟨settled, ⟨⟨_, ?_⟩, rfl⟩, ?_⟩
  · have values := ended.map Fin.val
    rw [Loop.ended, List.map_map, List.map_coe_finRange_eq_range] at values
    rw [List.map_map]
    exact values
  · intro limit limits
    obtain ⟨semaphore, some⟩ := sound.kept.semaphore_of limits
    have unawaited := sound.waiters_nil idle done
    have permits := sound.kept.permits limit limits semaphore some
    rw [waiters_of_some some] at unawaited
    rw [unawaited, done] at permits
    change semaphore.value = limit at permits
    rw [some, ← permits, ← unawaited]

/-- Of three commands under one permit the first succeeds and the caller then cancels: the
second, which the permit was handed to, is underway when it is cancelled, the third waits. -/
theorem completes_cancelled : ∃ final : Loop Bool Unit 3,
    ((oneByOne 3).system id).exec (oneByOne 3).loop
        [.turn, .turn, .turn, .finish 0 (.result true), .cancel, .turn, .turn, .turn, .turn,
          .finish 1 .cancelled, .turn, .turn] = some final ∧
      final.settled.Perm (List.finRange 3) ∧
      final.semaphore = some ⟨1, []⟩ :=
  ⟨_, rfl, by
    have done := (@completes Bool Unit 3 (oneByOne 3) id
      [.turn, .turn, .turn, .finish 0 (.result true), .cancel, .turn, .turn, .turn, .turn,
        .finish 1 .cancelled, .turn, .turn] _ rfl).2 rfl rfl
    exact ⟨done.1, done.2.2 1 rfl⟩⟩

/-- A run that nobody cancels and no failure aborts starts every command. -/
theorem starts_all (quiet : ∀ event ∈ events, event.quiet config ok = true)
    (runs : (config.system ok).exec config.loop events = some final)
    (idle : final.ready = []) (done : final.underway = []) :
    final.started = List.finRange count :=
  (Undisturbed.of_exec quiet runs).started_eq (sound_of_exec runs) idle done

theorem starts_all_two : ∃ final : Loop Bool Unit 2,
    ((oneByOne 2).system id).exec (oneByOne 2).loop [.turn, .turn, .finish 0 (.result true),
        .turn, .turn, .finish 1 (.result true), .turn] = some final ∧
      final.started = List.finRange 2 :=
  ⟨_, rfl, @starts_all Bool Unit 2 (oneByOne 2) id [.turn, .turn, .finish 0 (.result true),
    .turn, .turn, .finish 1 (.result true), .turn] _ (by decide) rfl rfl rfl⟩

/-- After a failure only what was about to be stepped can start, and one waiter the failed
command's permit goes to; once the task group knows of the failure, nothing. -/
theorem starts_after_failure {before : Loop ρ ε count} {ending : Ending ρ ε}
    {more : List (Event ρ ε count)} (failFast : config.failFast = true)
    (runs : (config.system ok).exec config.loop events = some before)
    (fails : ending.failed ok = true)
    (continues : (config.system ok).exec before (.finish idx ending :: more) = some final) :
    before.freed.length ≤ 1 ∧
    (∃ late, final.started = before.started ++ late ∧
      List.Sublist late (starters before.ready ++ before.freed)) ∧
    (idx ∈ final.settled → ∀ rest last,
      (config.system ok).exec final rest = some last → last.started = final.started) := by
  have steady := steady_of_exec runs
  rw [System.exec_cons, Option.bind_eq_some_iff] at continues
  obtain ⟨middle, step, continues⟩ := continues
  change before.next ok config (.finish idx ending) = some middle at step
  have finished := steady.next step
  obtain ⟨_, same⟩ := Option.ite_none_right_eq_some.mp step
  cases same
  obtain ⟨settled, late, front, started, within, either⟩ :=
    (finish_awaited before idx fails).exec failFast finished continues
  refine ⟨steady.kept.length_freed_le, ⟨late, started, ?_⟩, ?_⟩
  · exact (List.sublist_append_left late _).trans within
  · intro among rest last runs
    rcases either with doomed | ⟨back, ready⟩
    · exact (doomed.exec runs).2
    · -- The task group has yet to be told.
      have settles := settled.kept.settles idx
      have places := settled.kept.places idx
      have told := List.count_pos_iff.mpr among
      have untold : 0 < (settling final.ready).count idx := by
        rw [ready, settling_append, settling_settled, List.count_append, List.count_cons_self]
        omega
      omega

/-- The waiter that the permit of the first command goes to starts before the abort. -/
theorem starts_after_failure_late : ∃ before final : Loop Bool Unit 3,
    ((oneByOne 3).system id).exec (oneByOne 3).loop [.turn, .turn, .turn] = some before ∧
      ((oneByOne 3).system id).exec before [.finish 0 (.result false), .turn, .turn] =
        some final ∧
      final.started = before.started ++ [1] ∧
      ∀ rest last, ((oneByOne 3).system id).exec final rest = some last →
        last.started = final.started :=
  ⟨_, _, rfl, rfl, rfl,
    (@starts_after_failure Bool Unit 3 (oneByOne 3) id [.turn, .turn, .turn] _ 0 _
      (.result false) [.turn, .turn] rfl rfl rfl rfl).2.2 (by decide)⟩

end Loop

end Cuprum.Concurrent
