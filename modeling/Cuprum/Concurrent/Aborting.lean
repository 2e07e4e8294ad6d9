import Cuprum.Concurrent.Permits

namespace Cuprum.Concurrent

open Semaphore Transition

variable {ρ ε : Type} {count : Nat} {config : ConcurrentConfig count} {ok : ρ → Bool}

namespace Loop

variable {self after : Loop ρ ε count} {idx : Fin count}

/-! What cancelling tasks changes, and what it leaves. -/

structure Cancelled (tasks : List (Fin count)) (before after : Loop ρ ε count) : Prop where
  firsts : firsts after.ready = firsts before.ready
  grants : granted after.ready = granted before.ready
  started : after.started = before.started
  ended : after.ended = before.ended
  aborting : after.aborting = before.aborting
  thrown : ∀ idx ∈ before.thrown, idx ∈ after.thrown
  pending : ∀ idx, (idx, .pending) ∈ after.waiters →
    (idx, .pending) ∈ before.waiters ∧ (idx ∈ tasks → idx ∈ before.ended)
  throws : ∀ idx ∈ tasks, idx ∉ before.ended →
    idx ∈ after.thrown ∨ (idx, .pending) ∈ before.waiters

theorem cancelled_cancelTask (self : Loop ρ ε count) (idx : Fin count) :
    Cancelled [idx] self (self.cancelTask idx) := by
  unfold cancelTask
  split
  next ended =>
    exact {
      firsts := rfl
      grants := rfl
      started := rfl
      ended := rfl
      aborting := rfl
      thrown := fun _ thrown => thrown
      pending := fun other waits => ⟨waits, fun same => List.mem_singleton.mp same ▸ ended⟩
      throws := fun other same unended => absurd (List.mem_singleton.mp same ▸ ended) unended }
  next unended =>
    split
    next fails =>
      have unwaiting : (idx, Future.pending) ∉ self.waiters := by
        intro waits
        cases some : self.semaphore with
        | none =>
            rw [waiters, some] at waits
            cases waits
        | some semaphore =>
            rw [waiters_of_some some] at waits
            rw [some, Option.bind_some, Fifo.cancel, if_pos waits] at fails
            cases fails
      exact {
        firsts := rfl
        grants := rfl
        started := rfl
        ended := rfl
        aborting := rfl
        thrown := fun _ thrown => List.mem_cons_of_mem _ thrown
        pending := fun other waits =>
          ⟨waits, fun same => absurd (List.mem_singleton.mp same ▸ waits) unwaiting⟩
        throws := fun other same _ => .inl (List.mem_singleton.mp same ▸ List.mem_cons_self) }
    next semaphore cancels =>
      rw [Option.bind_eq_some_iff] at cancels
      obtain ⟨before, some, cancels⟩ := cancels
      have cancels := cancel_cancels cancels
      refine {
        firsts := ?_
        grants := ?_
        started := rfl
        ended := rfl
        aborting := rfl
        thrown := fun _ thrown => thrown
        pending := ?_
        throws := ?_ }
      · change Concurrent.firsts (self.ready ++ [.resume idx false]) = _
        rw [firsts_append, firsts_resume, firsts_nil, List.append_nil]
      · change granted (self.ready ++ [.resume idx false]) = _
        rw [granted_append, granted_refusal, granted_nil, List.append_nil]
      · intro other waits
        obtain ⟨waited, different⟩ := (cancels.pending other).mp waits
        rw [waiters_of_some some]
        exact ⟨waited, fun same => absurd (List.mem_singleton.mp same) different⟩
      · intro other same _
        rw [waiters_of_some some, List.mem_singleton.mp same]
        exact .inr cancels.waited

theorem cancelled_cancelTasks (tasks : List (Fin count)) :
    ∀ self : Loop ρ ε count, Cancelled tasks self (self.cancelTasks tasks) := by
  induction tasks with
  | nil =>
      intro self
      exact {
        firsts := rfl
        grants := rfl
        started := rfl
        ended := rfl
        aborting := rfl
        thrown := fun _ thrown => thrown
        pending := fun _ waits => ⟨waits, fun wrong => (by cases wrong)⟩
        throws := fun _ wrong => (by cases wrong) }
  | cons idx tasks induction =>
      intro self
      have head := cancelled_cancelTask self idx
      have tail := induction (self.cancelTask idx)
      refine {
        firsts := tail.firsts.trans head.firsts
        grants := tail.grants.trans head.grants
        started := tail.started.trans head.started
        ended := tail.ended.trans head.ended
        aborting := tail.aborting.trans head.aborting
        thrown := fun other thrown => tail.thrown other (head.thrown other thrown)
        pending := ?_
        throws := ?_ }
      · intro other waits
        obtain ⟨between, unlisted⟩ := tail.pending other waits
        obtain ⟨before, other'⟩ := head.pending other between
        refine ⟨before, fun among => ?_⟩
        rcases List.mem_cons.mp among with same | among
        · exact other' (List.mem_singleton.mpr same)
        · exact head.ended ▸ unlisted among
      · intro other among unended
        rcases List.mem_cons.mp among with same | among
        · rcases head.throws other (List.mem_singleton.mpr same) unended with thrown | waits
          · exact .inl (tail.thrown other thrown)
          · exact .inr waits
        · rcases tail.throws other among (head.ended ▸ unended) with thrown | waits
          · exact .inl thrown
          · exact .inr (head.pending other waits).1

/-- Every task that has not started is about to be thrown out, or has been. -/
structure Doomed (loop : Loop ρ ε count) : Prop where
  aborting : loop.aborting = true
  firsts : ∀ idx ∈ firsts loop.ready, idx ∈ loop.thrown
  grants : ∀ idx ∈ granted loop.ready, idx ∈ loop.thrown
  unwaiting : ∀ waiter ∈ loop.waiters, waiter.2 ≠ .pending

theorem Kept.unended (kept : self.Kept config [] 0)
    (elsewhere : idx ∈ firsts self.ready ∨ idx ∈ self.waiters.map Prod.fst) :
    idx ∉ self.ended ∧ idx ∉ self.settled := by
  have places := kept.places idx
  have settles := kept.settles idx
  rw [← List.count_eq_zero, ← List.count_eq_zero]
  rcases elsewhere with here | here
  · have here := List.count_pos_iff.mpr here
    omega
  · have here := List.count_pos_iff.mpr here
    omega

/-- An abort dooms every task that has not started. -/
theorem Kept.abort_doomed (kept : self.Kept config [] 0) (unaborted : self.aborting = false) :
    (self.abort config).Doomed ∧ (self.abort config).started = self.started := by
  have cancelled := cancelled_cancelTasks (config.order.filter (· ∉ self.settled))
    { self with aborting := true }
  have listed : ∀ idx, idx ∉ self.settled → idx ∈ config.order.filter (· ∉ self.settled) := by
    intro idx unsettled
    exact List.mem_filter.mpr ⟨config.complete idx, by simpa using unsettled⟩
  unfold Loop.abort
  rw [unaborted, if_neg Bool.false_ne_true]
  refine ⟨{
    aborting := cancelled.aborting
    firsts := ?_
    grants := ?_
    unwaiting := ?_ }, cancelled.started⟩
  · intro idx among
    rw [cancelled.firsts] at among
    obtain ⟨unended, unsettled⟩ := kept.unended (.inl among)
    rcases cancelled.throws idx (listed idx unsettled) unended with thrown | waits
    · exact thrown
    · have named : idx ∈ self.waiters.map Prod.fst := List.mem_map_of_mem waits
      have places := kept.places idx
      have first := List.count_pos_iff.mpr among
      have second := List.count_pos_iff.mpr named
      change 0 < (Concurrent.firsts self.ready).count idx at first
      omega
  · intro idx among
    rw [cancelled.grants] at among
    have handed : (idx, Future.woken) ∈ self.waiters := by
      apply mem_woken.mp
      rw [← kept.grants]
      exact among
    obtain ⟨unended, unsettled⟩ := kept.unended (.inr (List.mem_map_of_mem handed))
    rcases cancelled.throws idx (listed idx unsettled) unended with thrown | waits
    · exact thrown
    · cases future_unique kept.names_nodup handed waits
  · intro waiter among waits
    obtain ⟨who, future⟩ := waiter
    cases waits
    obtain ⟨waited, ended⟩ := cancelled.pending who among
    obtain ⟨unended, unsettled⟩ := kept.unended (.inr (List.mem_map_of_mem waited))
    exact unended (ended (listed who unsettled))

theorem Doomed.conclude {ending : Ending ρ ε} (doomed : self.Doomed) :
    (self.conclude ok idx ending).Doomed :=
  { doomed with
    firsts := by
      intro other among
      change other ∈ Concurrent.firsts (self.ready ++ [.settled idx _]) at among
      rw [firsts_append, firsts_settled, firsts_nil, List.append_nil] at among
      exact doomed.firsts other among
    grants := by
      intro other among
      change other ∈ granted (self.ready ++ [.settled idx _]) at among
      rw [granted_append, granted_settled, granted_nil, List.append_nil] at among
      exact doomed.grants other among }

/-- What is scheduled starts no task. -/
theorem Doomed.of_rest {callback : Callback count} {ready : List (Callback count)}
    (doomed : self.Doomed) (next : self.ready = callback :: ready) :
    Doomed { self with ready := ready } :=
  { doomed with
    firsts := by
      intro other among
      apply doomed.firsts
      rw [next]
      exact (List.Sublist.filterMap _ (List.sublist_cons_self _ _)).subset among
    grants := by
      intro other among
      apply doomed.grants
      rw [next]
      exact (List.Sublist.filterMap _ (List.sublist_cons_self _ _)).subset among }

theorem Doomed.with_semaphore {semaphore : Fifo (Fin count)} (doomed : self.Doomed)
    (unwaiting : ∀ waiter ∈ semaphore.waiters, waiter.2 ≠ .pending) :
    (self.wake ([], semaphore)).Doomed :=
  { doomed with
    firsts := by
      intro other among
      change other ∈ Concurrent.firsts (self.ready ++ []) at among
      rw [List.append_nil] at among
      exact doomed.firsts other among
    grants := by
      intro other among
      change other ∈ granted (self.ready ++ []) at among
      rw [List.append_nil] at among
      exact doomed.grants other among
    unwaiting := unwaiting }

theorem Doomed.abort (doomed : self.Doomed) : self.abort config = self := by
  unfold Loop.abort
  rw [doomed.aborting, if_pos rfl]

theorem Doomed.resume {flag : Bool} (doomed : self.Doomed)
    (thrown : flag = true → idx ∈ self.thrown) :
    (self.resume ok idx flag).Doomed ∧ (self.resume ok idx flag).started = self.started := by
  unfold Loop.resume
  split
  next => exact ⟨doomed, rfl⟩
  next semaphore some =>
    have idle : ∀ waiter ∈ semaphore.waiters, waiter.2 ≠ .pending := by
      rw [← waiters_of_some some]
      exact doomed.unwaiting
    have throws : (!flag || decide (idx ∈ self.thrown)) = true := by
      cases flag
      · rfl
      · simpa using thrown rfl
    simp only [throws, if_true, leave_idle idle]
    refine ⟨Doomed.conclude (doomed.with_semaphore ?_), rfl⟩
    exact fun waiter among => idle waiter (List.mem_filter.mp among).1

theorem Doomed.finish {ending : Ending ρ ε} (doomed : self.Doomed) :
    (self.finish ok idx ending).Doomed ∧ (self.finish ok idx ending).started = self.started := by
  have released : Doomed (Loop.release { self with underway := self.underway.erase idx }) ∧
      (Loop.release { self with underway := self.underway.erase idx }).started = self.started := by
    unfold Loop.release
    split
    next => exact ⟨{ doomed with }, rfl⟩
    next semaphore some =>
      have idle : ∀ waiter ∈ semaphore.waiters, waiter.2 ≠ .pending := by
        have same : self.waiters = semaphore.waiters := waiters_of_some some
        rw [← same]
        exact doomed.unwaiting
      rw [release_idle idle]
      have erased : Doomed { self with underway := self.underway.erase idx } := { doomed with }
      exact ⟨erased.with_semaphore idle, rfl⟩
  exact ⟨released.1.conclude, released.2⟩

theorem Doomed.cancelTasks (doomed : self.Doomed) (tasks : List (Fin count)) :
    (self.cancelTasks tasks).Doomed ∧ (self.cancelTasks tasks).started = self.started := by
  have cancelled := cancelled_cancelTasks tasks self
  refine ⟨{
    aborting := cancelled.aborting.trans doomed.aborting
    firsts := ?_
    grants := ?_
    unwaiting := ?_ }, cancelled.started⟩
  · intro idx among
    exact cancelled.thrown idx (doomed.firsts idx (cancelled.firsts ▸ among))
  · intro idx among
    exact cancelled.thrown idx (doomed.grants idx (cancelled.grants ▸ among))
  · intro waiter among waits
    obtain ⟨who, future⟩ := waiter
    cases waits
    exact doomed.unwaiting _ (cancelled.pending who among).1 rfl

/-- Once its task group has aborted a run starts nothing. -/
theorem Doomed.next {event : Event ρ ε count} (doomed : self.Doomed)
    (steps : self.next ok config event = some after) :
    after.Doomed ∧ after.started = self.started := by
  cases event with
  | turn =>
      change self.turn ok config = some after at steps
      unfold Loop.turn at steps
      split at steps
      next => cases steps
      next callback ready next =>
        cases steps
        have rest := doomed.of_rest next
        cases callback with
        | first idx =>
            have thrown : idx ∈ self.thrown := by
              apply doomed.firsts
              rw [next]
              exact List.mem_cons_self
            change (Loop.first ok { self with ready := ready } idx).Doomed ∧
              (Loop.first ok { self with ready := ready } idx).started = self.started
            unfold Loop.first
            rw [if_pos thrown]
            exact ⟨rest.conclude, rfl⟩
        | resume idx flag =>
            apply rest.resume
            intro granted
            apply doomed.grants
            rw [next, granted]
            exact List.mem_cons_self
        | settled idx failed =>
            have settled : Doomed { self with ready := ready, settled := self.settled ++ [idx] } :=
              { rest with }
            change (if config.failFast && failed then Loop.abort config _ else _).Doomed ∧
              (if config.failFast && failed then Loop.abort config _ else _).started = self.started
            rw [settled.abort]
            split <;> exact ⟨settled, rfl⟩
        | abort =>
            change (Loop.abort config _).Doomed ∧ (Loop.abort config _).started = self.started
            rw [rest.abort]
            exact ⟨rest, rfl⟩
  | finish idx ending =>
      obtain ⟨_, same⟩ := Option.ite_none_right_eq_some.mp steps
      cases same
      exact doomed.finish
  | cancel =>
      obtain ⟨_, same⟩ := Option.ite_none_right_eq_some.mp steps
      cases same
      unfold Loop.cancel
      split
      · refine ⟨{ doomed with
          firsts := ?_
          grants := ?_ }, rfl⟩
        · intro idx among
          change idx ∈ Concurrent.firsts (self.ready ++ [.abort]) at among
          rw [firsts_append, firsts_abort, firsts_nil, List.append_nil] at among
          exact doomed.firsts idx among
        · intro idx among
          change idx ∈ granted (self.ready ++ [.abort]) at among
          rw [granted_append, granted_abort, granted_nil, List.append_nil] at among
          exact doomed.grants idx among
      · exact doomed.cancelTasks _

/-! What starts between a failure and the abort it brings about. -/

/-- What is scheduled goes behind what was ready. -/
structure Grows (new : List (Fin count)) (before after : Loop ρ ε count) : Prop where
  ready : before.ready <+: after.ready
  started : after.started = before.started ++ new
  aborting : after.aborting = before.aborting

namespace Grows

variable {before : Loop ρ ε count} {new : List (Fin count)}

theorem refl (self : Loop ρ ε count) : Grows [] self self where
  ready := List.prefix_rfl
  started := (List.append_nil _).symm
  aborting := rfl

theorem schedule (grows : Grows new before self) (callbacks : List (Callback count)) :
    Grows new before (self.schedule callbacks) where
  ready := grows.ready.trans (List.prefix_append _ _)
  started := grows.started
  aborting := grows.aborting

theorem conclude {ending : Ending ρ ε} (grows : Grows new before self) :
    Grows new before (self.conclude ok idx ending) where
  ready := grows.ready.trans (List.prefix_append _ _)
  started := grows.started
  aborting := grows.aborting

theorem wake (grows : Grows new before self) (woken : List (Fin count) × Fifo (Fin count)) :
    Grows new before (self.wake woken) where
  ready := grows.ready.trans (List.prefix_append _ _)
  started := grows.started
  aborting := grows.aborting

theorem start (grows : Grows [] before self) (idx : Fin count) :
    Grows [idx] before (self.start idx) where
  ready := grows.ready
  started := by
    change self.started ++ [idx] = _
    rw [grows.started, List.append_nil]
  aborting := grows.aborting

theorem cancelTasks (self : Loop ρ ε count) (tasks : List (Fin count)) :
    Grows [] self (self.cancelTasks tasks) := by
  induction tasks generalizing self with
  | nil => exact refl self
  | cons idx tasks induction =>
      have head : Grows [] self (self.cancelTask idx) := by
        unfold cancelTask
        split
        next => exact refl self
        next =>
          split
          next => exact { refl self with }
          next => exact { (refl self).schedule [.resume idx false] with }
      have tail := induction (self.cancelTask idx)
      exact {
        ready := head.ready.trans tail.ready
        started := by
          rw [List.append_nil]
          exact (tail.started.trans (List.append_nil _)).trans
            (head.started.trans (List.append_nil _))
        aborting := tail.aborting.trans head.aborting }

theorem finish (self : Loop ρ ε count) (idx : Fin count) (ending : Ending ρ ε) :
    Grows [] self (self.finish ok idx ending) := by
  apply conclude
  unfold Loop.release
  split
  next => exact { refl self with }
  next semaphore _ => exact { (refl self).wake semaphore.release with }

end Grows

end Loop

/-- The task that a callback may start. -/
def Callback.starter? : Callback count → Option (Fin count)
  | .first idx | .resume idx true => some idx
  | .resume _ false | .settled _ _ | .abort => none

def starters (ready : List (Callback count)) : List (Fin count) :=
  ready.filterMap Callback.starter?

namespace Loop

variable {self after : Loop ρ ε count} {idx : Fin count}

theorem grows_first (self : Loop ρ ε count) (idx : Fin count) :
    ∃ new, List.Sublist new [idx] ∧ Grows new self (self.first ok idx) := by
  unfold Loop.first
  split
  next => exact ⟨[], List.nil_sublist _, (Grows.refl self).conclude⟩
  next =>
    split
    next => exact ⟨[idx], List.Sublist.refl _, (Grows.refl self).start idx⟩
    next semaphore some =>
      split
      next => exact ⟨[], List.nil_sublist _, { Grows.refl self with }⟩
      next =>
        have acquired : Grows [] self { self with semaphore := .some semaphore.acquire } :=
          { Grows.refl self with }
        exact ⟨[idx], List.Sublist.refl _, acquired.start idx⟩

theorem grows_resume (self : Loop ρ ε count) (idx : Fin count) (flag : Bool) :
    ∃ new, List.Sublist new (Callback.resume idx flag).starter?.toList ∧
      Grows new self (self.resume ok idx flag) := by
  unfold Loop.resume
  split
  next => exact ⟨[], List.nil_sublist _, Grows.refl self⟩
  next semaphore some =>
    cases flag with
    | false => exact ⟨[], List.nil_sublist _, ((Grows.refl self).wake _).conclude⟩
    | true =>
        simp only [Bool.not_true, Bool.false_or, Bool.true_and]
        split
        next => exact ⟨[], List.nil_sublist _, ((Grows.refl self).wake _).conclude⟩
        next => exact ⟨[idx], List.Sublist.refl _, ((Grows.refl self).wake _).start idx⟩

@[simp] theorem starters_append (ready more : List (Callback count)) :
    starters (ready ++ more) = starters ready ++ starters more :=
  List.filterMap_append

theorem starters_cons (callback : Callback count) (ready : List (Callback count)) :
    starters (callback :: ready) = callback.starter?.toList ++ starters ready := by
  unfold starters
  cases starts : callback.starter? <;> simp [starts]

@[simp] theorem starters_woken (woken : List (Fin count)) :
    starters (woken.map (.resume · true)) = woken := by
  induction woken with
  | nil => rfl
  | cons who woken induction => exact congrArg (who :: ·) induction

/-- What holds of the loop between two callbacks, of an abort too. -/
structure Steady (config : ConcurrentConfig count) (loop : Loop ρ ε count) : Prop where
  kept : loop.Kept config [] 0
  doomed : loop.aborting = true → loop.Doomed

theorem Steady.abort (steady : self.Steady config) :
    (self.abort config).Doomed ∧ (self.abort config).started = self.started := by
  cases aborting : self.aborting with
  | true =>
      have doomed := steady.doomed aborting
      rw [doomed.abort]
      exact ⟨doomed, rfl⟩
  | false => exact steady.kept.abort_doomed aborting

theorem Steady.onTaskDone {ready : List (Callback count)} {failed : Bool}
    (steady : self.Steady config) (next : self.ready = .settled idx failed :: ready)
    (aborts : (config.failFast && failed) = true) :
    (Loop.onTaskDone config { self with ready := ready } idx failed).Doomed ∧
      (Loop.onTaskDone config { self with ready := ready } idx failed).started = self.started := by
  have settled : Steady config
      { self with ready := ready, settled := self.settled ++ [idx] } :=
    { kept := steady.kept.settle next
      doomed := fun aborting => { (steady.doomed aborting).of_rest next with } }
  unfold Loop.onTaskDone
  simp only [aborts, if_true]
  exact settled.abort

/-- A callback starts the task it is for at most; an abort starts none. -/
theorem Steady.run_grows (steady : self.Steady config) {callback : Callback count}
    {ready : List (Callback count)} (next : self.ready = callback :: ready) :
    (∃ new, List.Sublist new callback.starter?.toList ∧
      Grows new { self with ready := ready } (run ok config { self with ready := ready } callback)) ∨
    (run ok config { self with ready := ready } callback).Doomed ∧
      (run ok config { self with ready := ready } callback).started = self.started := by
  cases callback with
  | first idx => exact .inl (grows_first _ idx)
  | resume idx flag => exact .inl (grows_resume _ idx flag)
  | settled idx failed =>
      by_cases aborts : (config.failFast && failed) = true
      · exact .inr (steady.onTaskDone next aborts)
      · left
        refine ⟨[], List.nil_sublist _, ?_⟩
        change Grows [] _ (if config.failFast && failed then _ else _ : Loop ρ ε count)
        rw [if_neg aborts]
        exact { Grows.refl { self with ready := ready } with }
  | abort =>
      have passed : Steady config { self with ready := ready } :=
        { kept := steady.kept.passAbort next
          doomed := fun aborting => (steady.doomed aborting).of_rest next }
      exact .inr passed.abort

theorem next_grows {event : Event ρ ε count} (steps : self.next ok config event = some after) :
    Grows [] self after ∨ ∃ callback ready, self.ready = callback :: ready ∧
      after = run ok config { self with ready := ready } callback := by
  cases event with
  | turn =>
      change self.turn ok config = some after at steps
      unfold Loop.turn at steps
      split at steps
      next => cases steps
      next callback ready next =>
        cases steps
        exact .inr ⟨callback, ready, next, rfl⟩
  | finish idx ending =>
      obtain ⟨_, same⟩ := Option.ite_none_right_eq_some.mp steps
      cases same
      exact .inl (Grows.finish self idx ending)
  | cancel =>
      obtain ⟨_, same⟩ := Option.ite_none_right_eq_some.mp steps
      cases same
      left
      unfold Loop.cancel
      split
      · exact (Grows.refl self).schedule _
      · exact Grows.cancelTasks self _

theorem Steady.next {event : Event ρ ε count} (steady : self.Steady config)
    (steps : self.next ok config event = some after) : after.Steady config := by
  refine ⟨steady.kept.next steps, fun aborts => ?_⟩
  cases aborting : self.aborting with
  | true => exact ((steady.doomed aborting).next steps).1
  | false =>
      rcases next_grows steps with grows | ⟨callback, ready, next, rfl⟩
      · rw [grows.aborting, aborting] at aborts
        cases aborts
      · rcases @Steady.run_grows _ _ _ config ok self steady _ _ next with ⟨new, _, grows⟩ | ⟨doomed, _⟩
        · rw [grows.aborting] at aborts
          exact absurd aborts (by rw [aborting]; exact Bool.false_ne_true)
        · exact doomed

theorem steady_of_exec {events : List (Event ρ ε count)}
    (runs : (config.system ok).exec config.loop events = some self) : self.Steady config :=
  System.exec_invariant (config.system ok) (fun steady steps => steady.next steps)
    { kept := (sound_initially config).kept
      doomed := fun aborting => (by cases aborting) } runs

theorem Doomed.exec {events : List (Event ρ ε count)} (doomed : self.Doomed)
    (runs : (config.system ok).exec self events = some after) :
    after.Doomed ∧ after.started = self.started := by
  have preserved : ∀ {state : Loop ρ ε count} {event after},
      (state.Doomed ∧ state.started = self.started) →
      (config.system ok).next state event = some after →
        after.Doomed ∧ after.started = self.started := by
    intro state event after holds steps
    have next := holds.1.next steps
    exact ⟨next.1, next.2.trans holds.2⟩
  exact System.exec_invariant (config.system ok) preserved ⟨doomed, rfl⟩ runs

/-- A task has failed, and its task group has yet to be told.  Until it is, what was ready
before may start, and no more. -/
def Awaited (room base : List (Fin count)) (idx : Fin count) (loop : Loop ρ ε count) : Prop :=
  ∃ late front, loop.started = base ++ late ∧ List.Sublist (late ++ starters front) room ∧
    (loop.Doomed ∨ ∃ back, loop.ready = front ++ .settled idx true :: back)

theorem Awaited.of_doomed {room base late front : List (Fin count)} (doomed : self.Doomed)
    (started : self.started = base ++ late) (within : List.Sublist (late ++ front) room) :
    self.Awaited room base idx := by
  refine ⟨late, [], started, ?_, .inl doomed⟩
  change List.Sublist (late ++ []) room
  rw [List.append_nil]
  exact (List.sublist_append_left late front).trans within

theorem Awaited.next {room base : List (Fin count)} {event : Event ρ ε count}
    (failFast : config.failFast = true) (steady : self.Steady config)
    (awaited : self.Awaited room base idx) (steps : self.next ok config event = some after) :
    after.Awaited room base idx := by
  obtain ⟨late, front, started, within, doomed | ⟨back, ready⟩⟩ := awaited
  · obtain ⟨doomed, same⟩ := doomed.next steps
    exact .of_doomed doomed (same.trans started) within
  · rcases next_grows steps with grows | ⟨callback, others, next, rfl⟩
    · refine ⟨late, front, ?_, within, .inr ?_⟩
      · rw [grows.started, List.append_nil, started]
      · obtain ⟨more, same⟩ := grows.ready
        exact ⟨back ++ more, by rw [← same, ready, List.append_assoc, List.cons_append]⟩
    · cases front with
      | nil =>
          -- The task group is told, and aborts.
          have head : Callback.settled idx true :: back = callback :: others :=
            ready.symm.trans next
          cases head
          obtain ⟨doomed, same⟩ := steady.onTaskDone next (by rw [failFast]; rfl)
          exact .of_doomed doomed (same.trans started) within
      | cons first front =>
          have head : first :: (front ++ .settled idx true :: back) = callback :: others :=
            ready.symm.trans next
          cases head
          rw [starters_cons] at within
          rcases @Steady.run_grows _ _ _ config ok self steady _ _ next with ⟨new, starts, grows⟩ | ⟨doomed, same⟩
          · refine ⟨late ++ new, front, ?_, ?_, .inr ?_⟩
            · rw [grows.started, started, List.append_assoc]
            · rw [List.append_assoc]
              exact ((starts.append_right _).append_left _).trans within
            · obtain ⟨more, same⟩ := grows.ready
              exact ⟨back ++ more, by rw [← same, List.append_assoc, List.cons_append]⟩
          · exact .of_doomed doomed (same.trans started) within

theorem Awaited.exec {room base : List (Fin count)} {events : List (Event ρ ε count)}
    (failFast : config.failFast = true) (steady : self.Steady config)
    (awaited : self.Awaited room base idx)
    (runs : (config.system ok).exec self events = some after) :
    after.Steady config ∧ after.Awaited room base idx := by
  have preserved : ∀ {state : Loop ρ ε count} {event after},
      (state.Steady config ∧ state.Awaited room base idx) →
        (config.system ok).next state event = some after →
          after.Steady config ∧ after.Awaited room base idx := by
    intro state event after holds steps
    exact ⟨holds.1.next steps, holds.2.next failFast holds.1 steps⟩
  exact System.exec_invariant (config.system ok) preserved ⟨steady, awaited⟩ runs

/-- The waiter that a permit given back now is handed to. -/
def freed (self : Loop ρ ε count) : List (Fin count) :=
  self.semaphore.elim [] (·.release.1)

/-- The permit of a task that ends goes to one waiter at most. -/
theorem Kept.length_freed_le (kept : self.Kept config [] 0) : self.freed.length ≤ 1 := by
  unfold freed
  cases some : self.semaphore with
  | none => exact Nat.zero_le _
  | some semaphore => exact (release_wakes (kept.inLine_of some)).2.1

theorem finish_awaited {ending : Ending ρ ε} (self : Loop ρ ε count) (idx : Fin count)
    (fails : ending.failed ok = true) :
    (self.finish ok idx ending).Awaited (starters self.ready ++ self.freed) self.started idx := by
  unfold Loop.finish Loop.release freed
  cases some : self.semaphore with
  | none =>
      refine ⟨[], self.ready, (List.append_nil _).symm, ?_, .inr ⟨[], ?_⟩⟩
      · rw [Option.elim_none, List.nil_append, List.append_nil]
      · change self.ready ++ [.settled idx (ending.failed ok)] = _
        rw [fails]
  | some semaphore =>
      refine ⟨[], self.ready ++ semaphore.release.1.map (.resume · true),
        (List.append_nil _).symm, ?_, .inr ⟨[], ?_⟩⟩
      · rw [Option.elim_some, List.nil_append, starters_append, starters_woken]
      · change self.ready ++ semaphore.release.1.map (.resume · true) ++
          [.settled idx (ending.failed ok)] = _
        rw [fails]

end Loop

end Cuprum.Concurrent
