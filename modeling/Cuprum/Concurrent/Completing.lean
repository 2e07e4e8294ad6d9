import Cuprum.Concurrent.Aborting

namespace Cuprum.Concurrent

open Semaphore Transition

variable {ρ ε : Type} {count : Nat} {config : ConcurrentConfig count} {ok : ρ → Bool}

namespace Loop

variable {self after : Loop ρ ε count} {idx : Fin count}

/-! A loop with nothing to do has done everything. -/

theorem Kept.unawaited (kept : self.Kept config [] 0) (idle : self.ready = []) :
    woken self.waiters = [] ∧ cancelled self.waiters = [] := by
  constructor
  · rw [← kept.grants, idle]
    rfl
  · rw [List.eq_nil_iff_forall_not_mem]
    intro other among
    have refuses := kept.refuses other
    rw [idle] at refuses
    exact List.count_eq_zero.mp refuses.symm among

/-- Nobody is left to wait: there would have to be a permit for them. -/
theorem Sound.waiters_nil (sound : self.Sound config) (idle : self.ready = [])
    (done : self.underway = []) : self.waiters = [] := by
  obtain ⟨unwoken, uncancelled⟩ := sound.kept.unawaited idle
  cases some : self.semaphore with
  | none => rw [waiters, some, Option.elim_none]
  | some semaphore =>
      rw [waiters_of_some some] at unwoken uncancelled ⊢
      cases waiters : semaphore.waiters with
      | nil => rfl
      | cons waiter others =>
          have limited := sound.kept.limited
          rw [some, Option.isSome_some, eq_comm, Option.isSome_iff_exists] at limited
          obtain ⟨limit, limits⟩ := limited
          have permits := sound.kept.permits limit limits semaphore some
          have positive := config.positive limit limits
          rw [unwoken, done] at permits
          have among : waiter ∈ semaphore.waiters := by
            rw [waiters]
            exact List.mem_cons_self
          obtain ⟨who, future⟩ := waiter
          exfalso
          cases future with
          | pending =>
              rcases sound.prompt semaphore some with exhausted | unwaiting | handed
              · simp only [List.length_nil] at permits
                omega
              · exact unwaiting _ among rfl
              · exact handed unwoken
          | woken =>
              have among := mem_woken.mpr among
              rw [unwoken] at among
              cases among
          | cancelled =>
              have among := mem_cancelled.mpr among
              rw [uncancelled] at among
              cases among

theorem Sound.complete (sound : self.Sound config) (idle : self.ready = [])
    (done : self.underway = []) :
    self.ended.Perm (List.finRange count) ∧ self.settled.Perm (List.finRange count) := by
  have unawaited := sound.waiters_nil idle done
  have ends : ∀ other, self.ended.count other = 1 := by
    intro other
    have places := sound.kept.places other
    rw [idle, done, unawaited] at places
    simpa using places
  have spread : ∀ other, (List.finRange count).count other = 1 := by
    intro other
    rw [(List.nodup_finRange count).count, if_pos (List.mem_finRange other)]
  constructor
  · rw [List.perm_iff_count]
    intro other
    rw [ends, spread]
  · rw [List.perm_iff_count]
    intro other
    have settles := sound.kept.settles other
    rw [idle, ends] at settles
    rw [spread]
    exact settles

/-! The work that is left, which every step but a cancellation lessens. -/

end Loop

def Callback.work : Callback count → Nat
  | .first _ => 4
  | .resume _ _ => 0
  | .settled _ _ | .abort => 1

/-- A task that waits is left to resume, to run and to settle. -/
def Loop.work (self : Loop ρ ε count) : Nat :=
  (self.ready.map Callback.work).sum + 3 * self.waiters.length + 2 * self.underway.length

namespace Loop

variable {self after : Loop ρ ε count} {idx : Fin count}

theorem work_schedule (self : Loop ρ ε count) (callbacks : List (Callback count)) :
    (self.schedule callbacks).work = self.work + (callbacks.map Callback.work).sum := by
  simp only [work, schedule, waiters, List.map_append, List.sum_append]
  omega

theorem work_conclude (self : Loop ρ ε count) (idx : Fin count) (ending : Ending ρ ε) :
    (self.conclude ok idx ending).work = self.work + 1 :=
  work_schedule _ [.settled idx _]

theorem work_start (self : Loop ρ ε count) (idx : Fin count) :
    (self.start idx).work = self.work + 2 := by
  simp only [work, start, waiters, List.length_append, List.length_singleton]
  omega

theorem work_woken (woken : List (Fin count)) :
    ((woken.map fun who => Callback.resume who true).map Callback.work).sum = 0 := by
  induction woken with
  | nil => rfl
  | cons who woken induction => simpa [Callback.work] using induction

theorem work_wake (self : Loop ρ ε count) (woken : List (Fin count) × Fifo (Fin count)) :
    (self.wake woken).work + 3 * self.waiters.length =
      self.work + 3 * woken.2.waiters.length := by
  unfold wake
  rw [work_schedule, work_woken]
  simp only [work, waiters, Option.elim_some]
  omega

theorem work_first (self : Loop ρ ε count) (idx : Fin count) :
    (self.first ok idx).work ≤ self.work + 3 := by
  unfold first
  split
  next =>
    rw [work_conclude]
    omega
  next =>
    split
    next =>
      rw [work_start]
      omega
    next semaphore some =>
      have waiters := waiters_of_some some
      split
      next =>
        have longer : (semaphore.enqueue idx).waiters.length = semaphore.waiters.length + 1 :=
          List.length_append
        unfold work
        rw [waiters]
        change (self.ready.map Callback.work).sum + 3 * (semaphore.enqueue idx).waiters.length +
          2 * self.underway.length ≤ _
        omega
      next =>
        have same : Loop.work { self with semaphore := .some semaphore.acquire } = self.work := by
          unfold work
          rw [waiters]
          rfl
        rw [work_start, same]
        omega

theorem length_leave {semaphore : Fifo (Fin count)} {future : Future}
    (inLine : InLine semaphore.waiters) (distinct : (semaphore.waiters.map Prod.fst).Nodup)
    (among : (idx, future) ∈ semaphore.waiters) (givesBack : Bool) :
    (semaphore.leave idx givesBack).2.waiters.length + 1 = semaphore.waiters.length := by
  have names := congrArg List.length (leave_wakes inLine idx givesBack).1.names
  have here : idx ∈ semaphore.waiters.map Prod.fst := List.mem_map_of_mem among
  have erased : (semaphore.waiters.map Prod.fst).filter (· ≠ idx) =
      (semaphore.waiters.map Prod.fst).erase idx := by
    rw [distinct.erase_eq_filter]
    apply List.filter_congr
    intro other _
    by_cases same : other = idx <;> simp [same]
  rw [List.length_map] at names
  change _ = ((semaphore.waiters.filter (·.1 ≠ idx)).map Prod.fst).length at names
  rw [names, names_filter, erased, List.length_erase_of_mem here, List.length_map]
  have positive := List.length_pos_of_mem among
  omega

theorem work_resume {ready : List (Callback count)} {flag : Bool}
    (kept : self.Kept config [] 0) (next : self.ready = .resume idx flag :: ready) :
    (Loop.resume ok { self with ready := ready } idx flag).work + 1 ≤ self.work := by
  have rest : Loop.work { self with ready := ready } = self.work := by
    simp only [work, waiters, next, List.map_cons, List.sum_cons, Callback.work]
    omega
  have waits := kept.answered next
  unfold resume
  split
  next none =>
    have unawaited : self.waiters = [] := by
      change self.semaphore = .none at none
      rw [Loop.waiters, none, Option.elim_none]
    rw [unawaited] at waits
    cases waits
  next semaphore some =>
    have same : self.semaphore = .some semaphore := some
    have shorter := length_leave (kept.inLine_of same)
      (waiters_of_some same ▸ kept.names_nodup) (waiters_of_some same ▸ waits)
    have woken := work_wake { self with ready := ready }
      (semaphore.leave idx (flag && (!flag || decide (idx ∈ self.thrown))))
    have waiting : Loop.waiters { self with ready := ready } = semaphore.waiters :=
      waiters_of_some same
    have left := shorter (flag && (!flag || decide (idx ∈ self.thrown)))
    rw [waiting] at woken
    simp only
    split
    next =>
      rw [work_conclude]
      omega
    next =>
      rw [work_start]
      omega

theorem work_cancelTask (self : Loop ρ ε count) (idx : Fin count) :
    (self.cancelTask idx).work = self.work := by
  unfold cancelTask
  split
  next => rfl
  next =>
    split
    next => rfl
    next after cancels =>
      rw [Option.bind_eq_some_iff] at cancels
      obtain ⟨semaphore, some, cancels⟩ := cancels
      have names := congrArg List.length (cancel_cancels cancels).names
      rw [List.length_map, List.length_map] at names
      rw [work_schedule]
      simp only [work, waiters, Option.elim_some, names, some]
      rfl

theorem work_cancelTasks (tasks : List (Fin count)) :
    ∀ self : Loop ρ ε count, (self.cancelTasks tasks).work = self.work := by
  induction tasks with
  | nil => exact fun _ => rfl
  | cons idx tasks induction =>
      intro self
      exact (induction (self.cancelTask idx)).trans (work_cancelTask self idx)

theorem work_abort (self : Loop ρ ε count) : (self.abort config).work = self.work := by
  unfold abort
  split
  · rfl
  · exact work_cancelTasks _ _

theorem Kept.work_turn (kept : self.Kept config [] 0) (turns : self.turn ok config = some after) :
    after.work + 1 ≤ self.work := by
  unfold Loop.turn at turns
  split at turns
  next => cases turns
  next callback ready next =>
    cases turns
    have rest : Loop.work { self with ready := ready } + callback.work = self.work := by
      simp only [work, waiters, next, List.map_cons, List.sum_cons]
      omega
    cases callback with
    | first idx =>
        have first : (Loop.first ok { self with ready := ready } idx).work ≤ _ :=
          work_first _ idx
        change (Loop.first ok { self with ready := ready } idx).work + 1 ≤ _
        simp only [Callback.work] at rest
        omega
    | resume idx flag => exact work_resume kept next
    | settled idx failed =>
        change (if config.failFast && failed then _ else _ : Loop ρ ε count).work + 1 ≤ _
        split
        · rw [work_abort, ← rest]
          exact Nat.le_refl _
        · rw [← rest]
          exact Nat.le_refl _
    | abort =>
        change (Loop.abort config { self with ready := ready }).work + 1 ≤ _
        rw [work_abort, ← rest]
        exact Nat.le_refl _

theorem Kept.work_finish {ending : Ending ρ ε} (kept : self.Kept config [] 0)
    (underway : idx ∈ self.underway) : (self.finish ok idx ending).work + 1 ≤ self.work := by
  have erased := List.length_erase_of_mem underway
  have positive := List.length_pos_of_mem underway
  have fewer : Loop.work { self with underway := self.underway.erase idx } + 2 = self.work := by
    simp only [work, waiters, erased]
    omega
  unfold Loop.finish Loop.release
  rw [work_conclude]
  split
  next => omega
  next semaphore some =>
    have same : self.semaphore = .some semaphore := some
    have names := congrArg List.length (release_wakes (kept.inLine_of same)).1.names
    rw [List.length_map, List.length_map] at names
    have woken := work_wake { self with underway := self.underway.erase idx } semaphore.release
    rw [waiters_of_some some, names] at woken
    change _ + 3 * semaphore.waiters.length = _ + 3 * semaphore.waiters.length at woken
    omega

end Loop

def Event.cancels : Event ρ ε count → Bool
  | .turn | .finish _ _ => false
  | .cancel => true

namespace Loop

variable {self after : Loop ρ ε count} {idx : Fin count}

/-- Every step but a cancellation lessens the work. -/
theorem Kept.work_next {event : Event ρ ε count} (kept : self.Kept config [] 0)
    (steps : self.next ok config event = some after) :
    after.work + 1 ≤ self.work + 2 * event.cancels.toNat := by
  cases event with
  | turn => exact kept.work_turn steps
  | finish idx ending =>
      obtain ⟨underway, same⟩ := Option.ite_none_right_eq_some.mp steps
      cases same
      exact kept.work_finish underway
  | cancel =>
      obtain ⟨_, same⟩ := Option.ite_none_right_eq_some.mp steps
      cases same
      unfold Loop.cancel
      change _ ≤ self.work + 2
      split
      · rw [work_schedule]
        exact Nat.le_refl _
      · rw [work_cancelTasks]
        omega

theorem work_initially (config : ConcurrentConfig count) :
    (config.loop : Loop ρ ε count).work = 4 * count := by
  have waiters : (config.loop : Loop ρ ε count).waiters = [] := by
    unfold ConcurrentConfig.loop Loop.waiters
    cases config.concurrency <;> rfl
  have ready : ∀ tasks : List (Fin count),
      ((tasks.map Callback.first).map Callback.work).sum = 4 * tasks.length := by
    intro tasks
    induction tasks with
    | nil => rfl
    | cons idx tasks induction =>
        rw [List.map_cons, List.map_cons, List.sum_cons, induction, List.length_cons]
        change 4 + _ = _
        omega
  unfold work
  rw [waiters]
  change ((List.map Callback.first (List.finRange count)).map Callback.work).sum + 0 + 0 = _
  rw [ready, List.length_finRange]
  rfl

theorem work_of_exec {events : List (Event ρ ε count)}
    (runs : (config.system ok).exec config.loop events = some self) :
    events.length + self.work ≤ 4 * count + 2 * events.countP Event.cancels := by
  have preserved : ∀ {events : List (Event ρ ε count)} {state : Loop ρ ε count} {event after},
      (config.system ok).exec (config.system ok).initial events = some state →
        events.length + state.work ≤ 4 * count + 2 * events.countP Event.cancels →
          (config.system ok).next state event = some after →
            (events ++ [event]).length + after.work ≤
              4 * count + 2 * (events ++ [event]).countP Event.cancels := by
    intro events state event after before holds steps
    have less := (sound_of_exec before).kept.work_next steps
    rw [List.length_append, List.length_singleton, List.countP_append, List.countP_singleton]
    cases cancels : event.cancels <;> simp [cancels] at less ⊢ <;> omega
  refine System.exec_history (config.system ok) ?_ preserved runs
  change 0 + (config.loop : Loop ρ ε count).work ≤ _
  rw [work_initially]
  omega

end Loop

/-! A run that nobody cancels, and that no failure aborts. -/

def Event.quiet (config : ConcurrentConfig count) (ok : ρ → Bool) : Event ρ ε count → Bool
  | .turn => true
  | .finish _ ending => !(config.failFast && ending.failed ok)
  | .cancel => false

def Callback.quiet (config : ConcurrentConfig count) : Callback count → Bool
  | .first _ | .resume _ true => true
  | .settled _ failed => !(config.failFast && failed)
  | .resume _ false | .abort => false

namespace Loop

variable {self after : Loop ρ ε count} {idx : Fin count}

/-- Nothing is thrown into a task, and what has started is underway or has ended. -/
structure Undisturbed (config : ConcurrentConfig count) (loop : Loop ρ ε count) : Prop where
  unthrown : loop.thrown = []
  quiet : ∀ callback ∈ loop.ready, callback.quiet config = true
  begun : ∀ idx, loop.started.count idx = loop.underway.count idx + loop.ended.count idx

namespace Undisturbed

theorem schedule {callbacks : List (Callback count)} (undisturbed : self.Undisturbed config)
    (quiet : ∀ callback ∈ callbacks, callback.quiet config = true) :
    (self.schedule callbacks).Undisturbed config :=
  { undisturbed with
    quiet := by
      intro callback among
      rcases List.mem_append.mp among with before | new
      · exact undisturbed.quiet callback before
      · exact quiet callback new }

theorem wake (undisturbed : self.Undisturbed config)
    (woken : List (Fin count) × Fifo (Fin count)) : (self.wake woken).Undisturbed config := by
  have stored : Undisturbed config { self with semaphore := some woken.2 } :=
    { undisturbed with }
  refine stored.schedule ?_
  intro callback among
  obtain ⟨who, _, rfl⟩ := List.mem_map.mp among
  rfl

theorem start (undisturbed : self.Undisturbed config) (idx : Fin count) :
    (self.start idx).Undisturbed config :=
  { undisturbed with
    begun := by
      intro other
      have begun := undisturbed.begun other
      change (self.started ++ [idx]).count other =
        (self.underway ++ [idx]).count other + self.ended.count other
      rw [List.count_append, List.count_append]
      omega }

theorem first (undisturbed : self.Undisturbed config) (idx : Fin count) :
    (self.first ok idx).Undisturbed config := by
  unfold Loop.first
  rw [if_neg (by rw [undisturbed.unthrown]; exact List.not_mem_nil)]
  split
  next => exact undisturbed.start idx
  next semaphore some =>
    split
    next => exact { undisturbed with }
    next =>
      have acquired : Undisturbed config { self with semaphore := .some semaphore.acquire } :=
        { undisturbed with }
      exact acquired.start idx

theorem resume (undisturbed : self.Undisturbed config) (idx : Fin count) :
    (self.resume ok idx true).Undisturbed config := by
  unfold Loop.resume
  rw [undisturbed.unthrown]
  split
  next => exact undisturbed
  next semaphore some => exact (undisturbed.wake _).start idx

theorem finish {ending : Ending ρ ε} (undisturbed : self.Undisturbed config)
    (underway : idx ∈ self.underway)
    (quiet : (Event.finish idx ending).quiet config ok = true) :
    (self.finish ok idx ending).Undisturbed config := by
  have released : (Loop.release { self with underway := self.underway.erase idx }).thrown = [] ∧
      (∀ callback ∈ (Loop.release { self with underway := self.underway.erase idx }).ready,
        callback.quiet config = true) := by
    unfold Loop.release
    split
    next => exact ⟨undisturbed.unthrown, undisturbed.quiet⟩
    next semaphore some =>
      have woken := undisturbed.wake semaphore.release
      exact ⟨woken.unthrown, woken.quiet⟩
  have unchanged : ∀ state : Loop ρ ε count, state.release.started = state.started ∧
      state.release.underway = state.underway ∧ state.release.ended = state.ended := by
    intro state
    unfold Loop.release
    split <;> exact ⟨rfl, rfl, rfl⟩
  obtain ⟨started, still, ended⟩ := unchanged { self with underway := self.underway.erase idx }
  refine {
    unthrown := released.1
    quiet := ?_
    begun := ?_ }
  · intro callback among
    rcases List.mem_append.mp among with before | new
    · exact released.2 callback before
    · rw [List.mem_singleton.mp new]
      exact quiet
  · intro other
    have begun := undisturbed.begun other
    change (Loop.release { self with underway := self.underway.erase idx }).started.count other =
      (Loop.release { self with underway := self.underway.erase idx }).underway.count other +
        (((Loop.release { self with underway := self.underway.erase idx }).completions ++
          [(idx, ending)]).map Prod.fst).count other
    rw [started, still, List.map_append]
    change self.started.count other = (self.underway.erase idx).count other +
      ((Loop.release { self with underway := self.underway.erase idx }).ended ++ [idx]).count other
    rw [ended, List.count_append]
    change _ = _ + (self.ended.count other + [idx].count other)
    by_cases same : other = idx
    · subst same
      have here := List.count_pos_iff.mpr underway
      rw [List.count_erase_self, List.count_singleton_self]
      omega
    · rw [List.count_erase_of_ne same, List.count_singleton, if_neg (by simpa using Ne.symm same)]
      omega

theorem next {event : Event ρ ε count} (undisturbed : self.Undisturbed config)
    (quiet : event.quiet config ok = true) (steps : self.next ok config event = some after) :
    after.Undisturbed config := by
  cases event with
  | turn =>
      change self.turn ok config = some after at steps
      unfold Loop.turn at steps
      split at steps
      next => cases steps
      next callback ready next =>
        cases steps
        have calm := undisturbed.quiet callback (next ▸ List.mem_cons_self)
        have rest : Undisturbed config { self with ready := ready } :=
          { undisturbed with
            quiet := by
              intro other among
              exact undisturbed.quiet other (next ▸ List.mem_cons_of_mem _ among) }
        cases callback with
        | first idx => exact rest.first idx
        | resume idx flag =>
            cases flag with
            | true => exact rest.resume idx
            | false => cases calm
        | settled idx failed =>
            have passes : (config.failFast && failed) = false := by
              rwa [Callback.quiet, Bool.not_eq_true'] at calm
            change Undisturbed config (if config.failFast && failed then _ else _)
            rw [if_neg (by rw [passes]; exact Bool.false_ne_true)]
            exact { rest with }
        | abort => cases calm
  | finish idx ending =>
      obtain ⟨underway, same⟩ := Option.ite_none_right_eq_some.mp steps
      cases same
      exact undisturbed.finish underway quiet
  | cancel => cases quiet

theorem initially (config : ConcurrentConfig count) :
    (config.loop : Loop ρ ε count).Undisturbed config where
  unthrown := rfl
  quiet := by
    intro callback among
    obtain ⟨idx, _, rfl⟩ := List.mem_map.mp among
    rfl
  begun := fun _ => rfl

theorem of_exec {events : List (Event ρ ε count)}
    (quiet : ∀ event ∈ events, event.quiet config ok = true)
    (runs : (config.system ok).exec config.loop events = some self) :
    self.Undisturbed config := by
  induction events using List.reverseRecOn generalizing self with
  | nil =>
      cases runs
      exact initially config
  | append_singleton events event induction =>
      rw [System.exec_append, Option.bind_eq_some_iff] at runs
      obtain ⟨middle, before, last⟩ := runs
      rw [System.exec_cons, Option.bind_eq_some_iff] at last
      obtain ⟨after, step, rest⟩ := last
      cases rest
      have calm := induction (fun other among => quiet other (List.mem_append_left _ among)) before
      exact calm.next (quiet event (List.mem_append_right _ (List.mem_singleton_self _))) step

end Undisturbed

/-- Every command has started, in the order of its submission. -/
theorem Undisturbed.started_eq (undisturbed : self.Undisturbed config)
    (sound : self.Sound config) (idle : self.ready = []) (done : self.underway = []) :
    self.started = List.finRange count := by
  have ended := (sound.complete idle done).1
  have started : self.started.Perm (List.finRange count) := by
    rw [List.perm_iff_count]
    intro other
    rw [undisturbed.begun, done, ← List.perm_iff_count.mp ended other]
    exact Nat.zero_add _
  have ascends := (List.pairwise_append.mp sound.kept.ascends).1
  exact started.eq_of_pairwise (fun _ _ _ _ before after => absurd before (Fin.lt_asymm after))
    ascends (pairwise_finRange count)

end Loop

end Cuprum.Concurrent
