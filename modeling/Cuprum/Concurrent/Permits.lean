import Cuprum.Concurrent.Loop

namespace Cuprum.Concurrent

open Semaphore Transition

variable {ρ ε : Type} {count : Nat}

/-! The callbacks that are ready, by what they do. -/

def Callback.first? : Callback count → Option (Fin count)
  | .first idx => some idx
  | _ => none

def Callback.granted? : Callback count → Option (Fin count)
  | .resume idx true => some idx
  | _ => none

def Callback.refused? : Callback count → Option (Fin count)
  | .resume idx false => some idx
  | _ => none

def Callback.settled? : Callback count → Option (Fin count)
  | .settled idx _ => some idx
  | _ => none

def firsts (ready : List (Callback count)) : List (Fin count) := ready.filterMap Callback.first?

def granted (ready : List (Callback count)) : List (Fin count) := ready.filterMap Callback.granted?

def refused (ready : List (Callback count)) : List (Fin count) := ready.filterMap Callback.refused?

def settling (ready : List (Callback count)) : List (Fin count) :=
  ready.filterMap Callback.settled?

section Simp

variable (idx : Fin count) (flag : Bool) (ready more : List (Callback count))
  (woken : List (Fin count))

@[simp] theorem firsts_append : firsts (ready ++ more) = firsts ready ++ firsts more :=
  List.filterMap_append

@[simp] theorem granted_append : granted (ready ++ more) = granted ready ++ granted more :=
  List.filterMap_append

@[simp] theorem refused_append : refused (ready ++ more) = refused ready ++ refused more :=
  List.filterMap_append

@[simp] theorem settling_append : settling (ready ++ more) = settling ready ++ settling more :=
  List.filterMap_append

@[simp] theorem firsts_nil : firsts ([] : List (Callback count)) = [] := rfl
@[simp] theorem granted_nil : granted ([] : List (Callback count)) = [] := rfl
@[simp] theorem refused_nil : refused ([] : List (Callback count)) = [] := rfl
@[simp] theorem settling_nil : settling ([] : List (Callback count)) = [] := rfl

@[simp] theorem firsts_first : firsts (.first idx :: ready) = idx :: firsts ready := rfl
@[simp] theorem granted_first : granted (.first idx :: ready) = granted ready := rfl
@[simp] theorem refused_first : refused (.first idx :: ready) = refused ready := rfl
@[simp] theorem settling_first : settling (.first idx :: ready) = settling ready := rfl

@[simp] theorem firsts_resume : firsts (.resume idx flag :: ready) = firsts ready := rfl
@[simp] theorem granted_resume : granted (.resume idx true :: ready) = idx :: granted ready := rfl
@[simp] theorem granted_refusal : granted (.resume idx false :: ready) = granted ready := rfl
@[simp] theorem refused_resume : refused (.resume idx true :: ready) = refused ready := rfl
@[simp] theorem refused_refusal : refused (.resume idx false :: ready) = idx :: refused ready := rfl
@[simp] theorem settling_resume : settling (.resume idx flag :: ready) = settling ready := rfl

@[simp] theorem firsts_settled : firsts (.settled idx flag :: ready) = firsts ready := rfl
@[simp] theorem granted_settled : granted (.settled idx flag :: ready) = granted ready := rfl
@[simp] theorem refused_settled : refused (.settled idx flag :: ready) = refused ready := rfl
@[simp] theorem settling_settled : settling (.settled idx flag :: ready) = idx :: settling ready :=
  rfl

@[simp] theorem firsts_abort : firsts (.abort :: ready) = firsts ready := rfl
@[simp] theorem granted_abort : granted (.abort :: ready) = granted ready := rfl
@[simp] theorem refused_abort : refused (.abort :: ready) = refused ready := rfl
@[simp] theorem settling_abort : settling (.abort :: ready) = settling ready := rfl

@[simp] theorem firsts_woken : firsts (woken.map (.resume · true)) = [] := by
  induction woken with
  | nil => rfl
  | cons who woken induction => exact induction

@[simp] theorem granted_woken : granted (woken.map (.resume · true)) = woken := by
  induction woken with
  | nil => rfl
  | cons who woken induction => exact congrArg (who :: ·) induction

@[simp] theorem refused_woken : refused (woken.map (.resume · true)) = [] := by
  induction woken with
  | nil => rfl
  | cons who woken induction => exact induction

@[simp] theorem settling_woken : settling (woken.map (.resume · true)) = [] := by
  induction woken with
  | nil => rfl
  | cons who woken induction => exact induction

end Simp

def Loop.waiters (self : Loop ρ ε count) : List (Fin count × Future) :=
  self.semaphore.elim [] Fifo.waiters

def Loop.ended (self : Loop ρ ε count) : List (Fin count) :=
  self.completions.map Prod.fst

/-- No permit is lost or made, every task is in one place, who waits is stepped once its
future is done, and the tasks that have started are followed, in order, by those that wait
and those yet to be stepped.  A callback that runs has its task in hand, and the permit
the task holds. -/
structure Loop.Kept (config : ConcurrentConfig count) (hand : List (Fin count)) (permits : Nat)
    (loop : Loop ρ ε count) : Prop where
  limited : loop.semaphore.isSome = config.concurrency.isSome
  permits : ∀ limit ∈ config.concurrency, ∀ semaphore ∈ loop.semaphore,
    semaphore.value + (woken semaphore.waiters).length + loop.underway.length + permits = limit
  inLine : InLine loop.waiters
  grants : granted loop.ready = woken loop.waiters
  refuses : ∀ idx, (refused loop.ready).count idx = (cancelled loop.waiters).count idx
  places : ∀ idx, (firsts loop.ready).count idx + (loop.waiters.map Prod.fst).count idx +
    loop.underway.count idx + loop.ended.count idx + hand.count idx = 1
  settles : ∀ idx, loop.settled.count idx + (settling loop.ready).count idx =
    loop.ended.count idx
  ascends : (loop.started ++ (hopeful loop.waiters ++ firsts loop.ready)).Pairwise (· < ·)

/-- Nobody waits beside a free permit, unless someone is about to leave who sees to it. -/
def Loop.Prompt (self : Loop ρ ε count) : Prop :=
  ∀ semaphore ∈ self.semaphore, semaphore.value = 0 ∨
    (∀ waiter ∈ semaphore.waiters, waiter.2 ≠ .pending) ∨ woken semaphore.waiters ≠ []

/-- What holds of the loop between two of its callbacks. -/
structure Loop.Sound (config : ConcurrentConfig count) (loop : Loop ρ ε count) : Prop where
  kept : loop.Kept config [] 0
  prompt : loop.Prompt

namespace Loop

variable {config : ConcurrentConfig count} {self : Loop ρ ε count} {hand : List (Fin count)}
  {permits : Nat} {ok : ρ → Bool} {idx : Fin count}

theorem waiters_of_some {semaphore : Fifo (Fin count)} (some : self.semaphore = some semaphore) :
    self.waiters = semaphore.waiters := by
  rw [waiters, some, Option.elim_some]

theorem Kept.inLine_of {semaphore : Fifo (Fin count)} (kept : self.Kept config hand permits)
    (some : self.semaphore = some semaphore) : InLine semaphore.waiters :=
  waiters_of_some some ▸ kept.inLine

theorem Kept.semaphore_of {limit : Nat} (kept : self.Kept config hand permits)
    (limits : limit ∈ config.concurrency) :
    ∃ semaphore, self.semaphore = some semaphore := by
  have limited := kept.limited
  rwa [limits, Option.isSome_some, Option.isSome_iff_exists] at limited

theorem Kept.names_nodup (kept : self.Kept config hand permits) :
    (self.waiters.map Prod.fst).Nodup := by
  rw [List.nodup_iff_count_le_one]
  intro other
  have places := kept.places other
  omega

theorem Kept.start (kept : self.Kept config [idx] 1)
    (ascends : (self.started ++ idx :: (hopeful self.waiters ++ firsts self.ready)).Pairwise
      (· < ·)) : (self.start idx).Kept config [] 0 :=
  { kept with
    permits := by
      intro limit limits semaphore some
      have permits := kept.permits limit limits semaphore some
      simp only [Loop.start, List.length_append, List.length_singleton]
      omega
    places := by
      intro other
      have places := kept.places other
      simp only [Loop.start, List.count_append, List.count_nil]
      change (firsts self.ready).count other + (self.waiters.map Prod.fst).count other + _ +
        self.ended.count other + 0 = 1
      omega
    ascends := by
      change (self.started ++ [idx] ++ (hopeful self.waiters ++ firsts self.ready)).Pairwise
        (· < ·)
      rwa [List.append_assoc, List.singleton_append] }

theorem Kept.conclude (kept : self.Kept config [idx] permits) (ending : Ending ρ ε) :
    (self.conclude ok idx ending).Kept config [] permits :=
  { kept with
    grants := by simpa [Loop.conclude, schedule, waiters] using kept.grants
    refuses := by simpa [Loop.conclude, schedule, waiters] using kept.refuses
    places := by
      intro other
      have places := kept.places other
      simp only [Loop.conclude, schedule, ended, waiters, firsts_append, firsts_settled,
        firsts_nil, List.append_nil, List.map_append, List.map_cons, List.map_nil,
        List.count_append, List.count_nil] at places ⊢
      omega
    settles := by
      intro other
      have settles := kept.settles other
      simp only [Loop.conclude, schedule, ended, settling_append, settling_settled, settling_nil,
        List.map_append, List.map_cons, List.map_nil, List.count_append] at settles ⊢
      omega
    ascends := by
      have ascends := kept.ascends
      simpa [Loop.conclude, schedule, waiters] using ascends }

theorem Kept.wake {semaphore after : Fifo (Fin count)} {whom : List (Fin count)}
    (some : self.semaphore = some semaphore) (kept : self.Kept config hand permits)
    (wakes : Wakes semaphore whom after) :
    (self.wake (whom, after)).Kept config hand permits := by
  have waiters := waiters_of_some some
  refine { kept with
    limited := ?limited
    permits := ?permits
    inLine := wakes.inLine
    grants := ?grants
    refuses := ?refuses
    places := ?places
    settles := ?settles
    ascends := ?ascends }
  case limited =>
    rw [← kept.limited, some]
    rfl
  case permits =>
    intro limit limits other same
    cases same
    have permits := kept.permits limit limits semaphore some
    have value := wakes.value
    have handed := congrArg List.length wakes.woken
    rw [List.length_append] at handed
    change after.value + (woken after.waiters).length + self.underway.length + _ = limit
    omega
  case grants =>
    change granted (self.ready ++ whom.map (.resume · true)) = woken after.waiters
    rw [granted_append, granted_woken, kept.grants, waiters, wakes.woken]
  case refuses =>
    intro other
    change (refused (self.ready ++ whom.map (.resume · true))).count other = _
    rw [refused_append, refused_woken, List.append_nil, kept.refuses, waiters]
    exact congrArg (List.count other) wakes.cancelled.symm
  case places =>
    intro other
    have places := kept.places other
    rw [waiters] at places
    change (firsts (self.ready ++ whom.map (.resume · true))).count other +
      (after.waiters.map Prod.fst).count other + _ + self.ended.count other + _ = 1
    rwa [firsts_append, firsts_woken, List.append_nil, wakes.names]
  case settles =>
    intro other
    change self.settled.count other +
      (settling (self.ready ++ whom.map (.resume · true))).count other = _
    rw [settling_append, settling_woken, List.append_nil]
    exact kept.settles other
  case ascends =>
    change (self.started ++ (hopeful after.waiters ++
      firsts (self.ready ++ whom.map (Callback.resume · true)))).Pairwise (· < ·)
    rw [firsts_append, firsts_woken, List.append_nil, wakes.hopeful, ← waiters]
    exact kept.ascends

/-- A permit that is given back is free, or the next waiter's. -/
theorem Kept.release (kept : self.Kept config hand (permits + 1)) :
    self.release.Kept config hand permits := by
  unfold Loop.release
  split
  next none =>
    exact { kept with
      permits := by
        intro _ _ semaphore some
        rw [none] at some
        cases some }
  next semaphore some =>
    have waiters := waiters_of_some some
    obtain ⟨wakes, _, _⟩ := release_wakes (waiters ▸ kept.inLine)
    have freed : Loop.Kept config hand permits
        { self with semaphore := .some { semaphore with value := semaphore.value + 1 } } :=
      { kept with
        limited := by
          rw [← kept.limited, some]
          rfl
        permits := by
          intro limit limits other same
          cases same
          have permits := kept.permits limit limits semaphore some
          change semaphore.value + 1 + (woken semaphore.waiters).length + self.underway.length + _ =
            limit
          omega
        inLine := by
          have inLine := kept.inLine
          rwa [waiters] at inLine
        grants := by
          have grants := kept.grants
          rwa [waiters] at grants
        refuses := by
          have refuses := kept.refuses
          rwa [waiters] at refuses
        places := by
          have places := kept.places
          rwa [waiters] at places
        ascends := by
          have ascends := kept.ascends
          rwa [waiters] at ascends }
    have woken := freed.wake rfl wakes
    exact woken

/-- A task is stepped for the first time: those before it have started or wait. -/
theorem Kept.takeFirst {ready : List (Callback count)} (kept : self.Kept config [] 0)
    (next : self.ready = .first idx :: ready) :
    Kept config [idx] 0 { self with ready := ready } ∧
      (self.started ++ (hopeful self.waiters ++ idx :: firsts ready)).Pairwise (· < ·) := by
  have ascends := kept.ascends
  rw [next, firsts_first] at ascends
  refine ⟨{ kept with
    grants := ?_
    refuses := ?_
    places := ?_
    settles := ?_
    ascends := ?_ }, ascends⟩
  · have grants := kept.grants
    rwa [next, granted_first] at grants
  · have refuses := kept.refuses
    rwa [next, refused_first] at refuses
  · intro other
    have places := kept.places other
    rw [next, firsts_first] at places
    change (firsts ready).count other + (self.waiters.map Prod.fst).count other +
      self.underway.count other + self.ended.count other + _ = 1
    simp only [List.count_cons, List.count_nil] at places ⊢
    omega
  · have settles := kept.settles
    rwa [next, settling_first] at settles
  · refine List.Pairwise.sublist (List.Sublist.append_left ?_ _) ascends
    exact List.Sublist.append_left (List.sublist_cons_self _ _) _

theorem hopeful_of_unlocked {semaphore : Fifo (Fin count)}
    (unlocked : semaphore.locked = false) :
    0 < semaphore.value ∧ hopeful semaphore.waiters = [] := by
  unfold Fifo.locked at unlocked
  rw [Bool.or_eq_false_iff] at unlocked
  refine ⟨?_, ?_⟩
  · have occupied := unlocked.1
    simp only [beq_eq_false_iff_ne, ne_eq] at occupied
    omega
  · unfold hopeful
    rw [List.map_eq_nil_iff, List.filter_eq_nil_iff]
    intro waiter among
    have hopeless := unlocked.2
    rw [List.any_eq_false] at hopeless
    exact hopeless waiter among

theorem Kept.acquire {semaphore : Fifo (Fin count)} (some : self.semaphore = some semaphore)
    (kept : self.Kept config hand permits) (permitted : 0 < semaphore.value) :
    Kept config hand (permits + 1) { self with semaphore := .some semaphore.acquire } := by
  have waiters := waiters_of_some some
  have same : Loop.waiters { self with semaphore := .some semaphore.acquire } = self.waiters :=
    waiters.symm
  refine { kept with
    limited := by rw [← kept.limited, some]; rfl
    permits := ?_
    inLine := same ▸ kept.inLine
    grants := same ▸ kept.grants
    refuses := same ▸ kept.refuses
    places := same ▸ kept.places
    ascends := same ▸ kept.ascends }
  intro limit limits other equal
  cases equal
  have permits := kept.permits limit limits semaphore some
  change semaphore.value - 1 + (woken semaphore.waiters).length + self.underway.length + _ = limit
  omega

theorem Kept.enqueue {semaphore : Fifo (Fin count)} (some : self.semaphore = some semaphore)
    (kept : self.Kept config [idx] permits)
    (ascends : (self.started ++ (hopeful self.waiters ++ idx :: firsts self.ready)).Pairwise
      (· < ·)) :
    Kept config [] permits { self with semaphore := .some (semaphore.enqueue idx) } := by
  have waiters := waiters_of_some some
  refine { kept with
    limited := by rw [← kept.limited, some]; rfl
    permits := ?permits
    inLine := (waiters ▸ kept.inLine).enqueue idx
    grants := ?grants
    refuses := ?refuses
    places := ?places
    ascends := ?ascends }
  case permits =>
    intro limit limits other equal
    cases equal
    rw [woken_enqueue]
    exact kept.permits limit limits semaphore some
  case grants =>
    change granted self.ready = woken (semaphore.enqueue idx).waiters
    rw [woken_enqueue, ← waiters]
    exact kept.grants
  case refuses =>
    intro other
    change _ = (cancelled (semaphore.enqueue idx).waiters).count other
    rw [cancelled_enqueue, ← waiters]
    exact kept.refuses other
  case places =>
    intro other
    have places := kept.places other
    change (firsts self.ready).count other + ((semaphore.enqueue idx).waiters.map Prod.fst).count
      other + self.underway.count other + self.ended.count other + _ = 1
    rw [names_enqueue, ← waiters, List.count_append]
    simp only [List.count_nil] at places ⊢
    omega
  case ascends =>
    change (self.started ++ (hopeful (semaphore.enqueue idx).waiters ++ firsts self.ready)).Pairwise
      (· < ·)
    rw [hopeful_enqueue, ← waiters, List.append_assoc, List.singleton_append]
    exact ascends

theorem Kept.first {ready : List (Callback count)} (kept : self.Kept config [] 0)
    (next : self.ready = .first idx :: ready) :
    (Loop.first ok { self with ready := ready } idx).Kept config [] 0 := by
  obtain ⟨taken, ascends⟩ := kept.takeFirst next
  unfold Loop.first
  split
  next => exact taken.conclude .cancelled
  next =>
    split
    next none =>
      have unawaited : self.waiters = [] := by
        change self.semaphore = .none at none
        rw [Loop.waiters, none, Option.elim_none]
      apply Kept.start
      · exact { taken with
          permits := by
            intro _ _ semaphore some
            change self.semaphore = .none at none
            rw [show self.semaphore = _ from some] at none
            cases none }
      · rw [unawaited] at ascends
        change (self.started ++ idx :: (hopeful self.waiters ++ firsts ready)).Pairwise (· < ·)
        rw [unawaited]
        exact ascends
    next semaphore some =>
      split
      next => exact taken.enqueue some ascends
      next unlocked =>
        obtain ⟨permitted, hopeless⟩ := hopeful_of_unlocked (Bool.not_eq_true _ ▸ unlocked)
        have waiters : self.waiters = semaphore.waiters := waiters_of_some some
        apply Kept.start (taken.acquire some permitted)
        rw [waiters, hopeless] at ascends
        change (self.started ++ idx :: (hopeful semaphore.waiters ++ firsts ready)).Pairwise
          (· < ·)
        rw [hopeless]
        exact ascends

theorem Kept.answered {ready : List (Callback count)} {flag : Bool}
    (kept : self.Kept config [] 0) (next : self.ready = .resume idx flag :: ready) :
    (idx, if flag then Future.woken else .cancelled) ∈ self.waiters := by
  cases flag with
  | true =>
      apply mem_woken.mp
      rw [← kept.grants, next]
      exact List.mem_cons_self
  | false =>
      apply mem_cancelled.mp
      rw [← List.count_pos_iff, ← kept.refuses, next, refused_refusal, List.count_cons_self]
      exact Nat.succ_pos _

/-- The grants that are left are those of the other waiters. -/
theorem Kept.granted_rest {ready : List (Callback count)} {flag : Bool}
    (kept : self.Kept config [] 0) (next : self.ready = .resume idx flag :: ready) :
    granted ready = woken (self.waiters.filter (·.1 ≠ idx)) ∧
      (granted ready).length + flag.toNat = (woken self.waiters).length := by
  have here := kept.answered next
  have grants := kept.grants
  rw [next] at grants
  rw [woken_filter]
  cases flag with
  | true =>
      rw [granted_resume] at grants
      have distinct : (woken self.waiters).Nodup :=
        List.Nodup.sublist (woken_sublist _) kept.names_nodup
      rw [← grants] at distinct
      rw [← grants, filter_ne_cons (List.nodup_cons.mp distinct).1]
      exact ⟨rfl, rfl⟩
  | false =>
      rw [granted_refusal] at grants
      have absent : idx ∉ woken self.waiters := by
        intro among
        cases future_unique kept.names_nodup here (mem_woken.mp among)
      rw [grants, filter_ne_of_not_mem absent]
      exact ⟨rfl, rfl⟩

/-- The refusals that are left are those of the other waiters. -/
theorem Kept.refused_rest {ready : List (Callback count)} {flag : Bool}
    (kept : self.Kept config [] 0) (next : self.ready = .resume idx flag :: ready)
    (other : Fin count) :
    (refused ready).count other = (cancelled (self.waiters.filter (·.1 ≠ idx))).count other := by
  have here := kept.answered next
  have refuses := kept.refuses other
  rw [next] at refuses
  rw [cancelled_filter]
  by_cases same : other = idx
  · subst same
    rw [count_filter_ne]
    cases flag with
    | true =>
        rw [refused_resume] at refuses
        rw [refuses, List.count_eq_zero]
        intro among
        cases future_unique kept.names_nodup here (mem_cancelled.mp among)
    | false =>
        rw [refused_refusal, List.count_cons_self] at refuses
        have distinct : (cancelled self.waiters).Nodup :=
          List.Nodup.sublist (List.filter_sublist.map _) kept.names_nodup
        have unique := List.nodup_iff_count_le_one.mp distinct other
        omega
  · rw [List.count_filter (by simpa using same), ← refuses]
    cases flag with
    | true => rw [refused_resume]
    | false => rw [refused_refusal, List.count_cons_of_ne (Ne.symm same)]

/-- A task whose future is done is taken out of the line, with the permit it was handed
unless it gives it back. -/
theorem Kept.takeOut {ready : List (Callback count)} {semaphore : Fifo (Fin count)}
    {flag : Bool} (kept : self.Kept config [] 0) (throws : Bool)
    (next : self.ready = .resume idx flag :: ready)
    (some : self.semaphore = some semaphore) :
    Kept config [idx] (flag && !throws).toNat { self with
      ready := ready
      semaphore := .some ⟨semaphore.value + (flag && throws).toNat,
        semaphore.waiters.filter (·.1 ≠ idx)⟩ } := by
  have waiters := waiters_of_some some
  have granted := kept.granted_rest next
  refine { kept with
    limited := by rw [← kept.limited, some]; rfl
    permits := ?permits
    inLine := List.Pairwise.filter _ (kept.inLine_of some)
    grants := waiters ▸ granted.1
    refuses := waiters ▸ kept.refused_rest next
    places := ?places
    settles := ?settles
    ascends := ?ascends }
  case permits =>
    intro limit limits other equal
    cases equal
    have permits := kept.permits limit limits semaphore some
    rw [waiters] at granted
    rw [← granted.2, granted.1] at permits
    change semaphore.value + (flag && throws).toNat + (woken _).length + self.underway.length +
      _ = limit
    cases flag <;> cases throws <;>
      simp only [Bool.toNat_true, Bool.toNat_false, Bool.and_true, Bool.and_false,
        Bool.not_true, Bool.not_false] at permits ⊢ <;> omega
  case places =>
    intro other
    have places := kept.places other
    rw [next, firsts_resume, waiters] at places
    change (firsts ready).count other + (List.map Prod.fst (semaphore.waiters.filter _)).count
      other + self.underway.count other + self.ended.count other + _ = 1
    rw [names_filter]
    by_cases same : other = idx
    · subst same
      have here : 0 < (semaphore.waiters.map Prod.fst).count other :=
        List.count_pos_iff.mpr (List.mem_map_of_mem (waiters ▸ kept.answered next))
      rw [count_filter_ne, List.count_cons_self]
      simp only [List.count_nil] at places ⊢
      omega
    · rw [List.count_filter (by simpa using same), List.count_cons_of_ne (Ne.symm same)]
      exact places
  case settles =>
    have settles := kept.settles
    rwa [next, settling_resume] at settles
  case ascends =>
    have ascends := kept.ascends
    rw [next, firsts_resume, waiters] at ascends
    change (self.started ++ (hopeful (semaphore.waiters.filter _) ++ firsts ready)).Pairwise
      (· < ·)
    rw [hopeful_filter]
    exact List.Pairwise.sublist
      (List.Sublist.append_left (List.Sublist.append_right List.filter_sublist _) _) ascends

/-- A task that leaves the line wakes who is next, and is next in order if it was granted. -/
theorem Kept.leave {ready : List (Callback count)} {semaphore : Fifo (Fin count)}
    {flag : Bool} (kept : self.Kept config [] 0) (throws : Bool)
    (next : self.ready = .resume idx flag :: ready)
    (some : self.semaphore = some semaphore) :
    Kept config [idx] (flag && !throws).toNat (Loop.wake { self with ready := ready }
        (semaphore.leave idx (flag && throws))) ∧
      (flag = true → (self.started ++ idx :: (hopeful (semaphore.leave idx (flag && throws)).2.waiters
        ++ firsts ready)).Pairwise (· < ·)) := by
  have waiters := waiters_of_some some
  have inLine := kept.inLine_of some
  obtain ⟨wakes, _⟩ := leave_wakes inLine idx (flag && throws)
  refine ⟨?_, ?_⟩
  · have woken := (kept.takeOut throws next some).wake rfl wakes
    exact woken
  · intro granted
    subst granted
    have grants := kept.grants
    rw [next, granted_resume, waiters] at grants
    obtain ⟨behind, hopes⟩ := inLine.hopeful_eq grants.symm
    have ascends := kept.ascends
    rw [next, firsts_resume, waiters, hopes, List.cons_append] at ascends
    rw [wakes.hopeful]
    change (self.started ++ idx :: (hopeful (semaphore.waiters.filter _) ++ firsts ready)).Pairwise
      (· < ·)
    rw [hopeful_filter, hopes]
    refine List.Pairwise.sublist (List.Sublist.append_left (List.Sublist.cons_cons _ ?_) _) ascends
    refine List.Sublist.append_right ?_ _
    simp

theorem Kept.resume {ready : List (Callback count)} {flag : Bool} (kept : self.Kept config [] 0)
    (next : self.ready = .resume idx flag :: ready) :
    (Loop.resume ok { self with ready := ready } idx flag).Kept config [] 0 := by
  have here := kept.answered next
  unfold Loop.resume
  split
  next none =>
    have unawaited : self.waiters = [] := by
      change self.semaphore = .none at none
      rw [Loop.waiters, none, Option.elim_none]
    rw [unawaited] at here
    cases here
  next semaphore some =>
    simp only
    generalize decided : (!flag || decide (idx ∈ self.thrown)) = throws
    obtain ⟨left, ascends⟩ := kept.leave throws next some
    cases throws with
    | true =>
        rw [Bool.not_true, Bool.and_false] at left
        exact left.conclude .cancelled
    | false =>
        have granted : flag = true := by
          cases flag
          · cases decided
          · rfl
        have ascends := ascends granted
        rw [Bool.not_false, Bool.and_true, granted, Bool.toNat_true] at left
        apply Kept.start
        · rw [granted]
          exact left
        · change (self.started ++ idx :: (hopeful (semaphore.leave idx (flag && false)).2.waiters ++
            firsts (ready ++ List.map (Callback.resume · true) _))).Pairwise (· < ·)
          rw [firsts_append, firsts_woken, List.append_nil]
          exact ascends

theorem Kept.finish {ending : Ending ρ ε} (kept : self.Kept config [] 0)
    (underway : idx ∈ self.underway) : (self.finish ok idx ending).Kept config [] 0 := by
  have taken : Kept config [idx] 1 { self with underway := self.underway.erase idx } :=
    { kept with
      permits := by
        intro limit limits semaphore some
        have permits := kept.permits limit limits semaphore some
        have length := List.length_erase_of_mem underway
        have positive := List.length_pos_of_mem underway
        change _ + _ + (self.underway.erase idx).length + 1 = limit
        omega
      places := by
        intro other
        have places := kept.places other
        change (firsts self.ready).count other + (self.waiters.map Prod.fst).count other +
          (self.underway.erase idx).count other + self.ended.count other + _ = 1
        by_cases same : other = idx
        · subst same
          have here := List.count_pos_iff.mpr underway
          rw [List.count_erase_self, List.count_cons_self]
          simp only [List.count_nil] at places ⊢
          omega
        · rw [List.count_erase_of_ne same, List.count_cons_of_ne (Ne.symm same)]
          exact places }
  exact taken.release.conclude ending

theorem Kept.cancelTask (kept : self.Kept config [] 0) (idx : Fin count) :
    (self.cancelTask idx).Kept config [] 0 := by
  unfold Loop.cancelTask
  split
  next => exact kept
  next =>
    split
    next => exact { kept with }
    next after cancels =>
      rw [Option.bind_eq_some_iff] at cancels
      obtain ⟨semaphore, some, cancels⟩ := cancels
      have waiters := waiters_of_some some
      have cancels := cancel_cancels cancels
      have distinct : (after.waiters.map Prod.fst).Nodup := by
        rw [cancels.names, ← waiters]
        exact kept.names_nodup
      refine { kept with
        limited := by rw [← kept.limited, some]; rfl
        permits := ?permits
        inLine := cancels.inLine (waiters ▸ kept.inLine)
        grants := ?grants
        refuses := ?refuses
        places := ?places
        settles := ?settles
        ascends := ?ascends }
      case permits =>
        intro limit limits other equal
        cases equal
        rw [cancels.value, cancels.woken]
        exact kept.permits limit limits semaphore some
      case grants =>
        change granted (self.ready ++ [.resume idx false]) = woken after.waiters
        rw [granted_append, granted_refusal, granted_nil, List.append_nil, cancels.woken,
          ← waiters]
        exact kept.grants
      case refuses =>
        intro other
        have refuses := kept.refuses other
        rw [waiters] at refuses
        have marked := cancels.cancelled other
        have unique : (cancelled after.waiters).Nodup :=
          List.Nodup.sublist (List.filter_sublist.map _) distinct
        have before : (cancelled semaphore.waiters).Nodup :=
          List.Nodup.sublist (List.filter_sublist.map _) (waiters ▸ kept.names_nodup)
        change (refused (self.ready ++ [.resume idx false])).count other =
          (cancelled after.waiters).count other
        rw [refused_append, refused_refusal, refused_nil, List.count_append, refuses,
          unique.count, before.count]
        by_cases same : other = idx
        · subst same
          have absent : other ∉ cancelled semaphore.waiters := by
            intro among
            cases future_unique (waiters ▸ kept.names_nodup) cancels.waited
              (mem_cancelled.mp among)
          simp [marked, absent]
        · simp [marked, same, Ne.symm same]
      case places =>
        intro other
        have places := kept.places other
        change (firsts (self.ready ++ [.resume idx false])).count other +
          (after.waiters.map Prod.fst).count other + self.underway.count other +
          self.ended.count other + _ = 1
        rwa [firsts_append, firsts_resume, firsts_nil, List.append_nil, cancels.names, ← waiters]
      case settles =>
        intro other
        change self.settled.count other +
          (settling (self.ready ++ [.resume idx false])).count other = _
        rw [settling_append, settling_resume, settling_nil, List.append_nil]
        exact kept.settles other
      case ascends =>
        change (self.started ++ (hopeful after.waiters ++
          firsts (self.ready ++ [Callback.resume idx false]))).Pairwise (· < ·)
        rw [firsts_append, firsts_resume, firsts_nil, List.append_nil]
        refine List.Pairwise.sublist (List.Sublist.append_left ?_ _) kept.ascends
        rw [waiters]
        exact List.Sublist.append_right cancels.hopeful _

theorem Kept.cancelTasks (tasks : List (Fin count)) :
    ∀ {self : Loop ρ ε count}, self.Kept config [] 0 → (self.cancelTasks tasks).Kept config [] 0 := by
  induction tasks with
  | nil => exact fun kept => kept
  | cons idx tasks induction => exact fun kept => induction (kept.cancelTask idx)

theorem Kept.abort (kept : self.Kept config [] 0) : (self.abort config).Kept config [] 0 := by
  unfold Loop.abort
  split
  · exact kept
  · apply Kept.cancelTasks
    exact { kept with }

theorem Kept.settle {ready : List (Callback count)} {failed : Bool}
    (kept : self.Kept config [] 0) (next : self.ready = .settled idx failed :: ready) :
    Kept config [] 0 { self with ready := ready, settled := self.settled ++ [idx] } := by
  refine { kept with
    grants := ?grants
    refuses := ?refuses
    places := ?places
    settles := ?settles
    ascends := ?ascends }
  case grants =>
    have grants := kept.grants
    rwa [next, granted_settled] at grants
  case refuses =>
    have refuses := kept.refuses
    rwa [next, refused_settled] at refuses
  case places =>
    have places := kept.places
    rwa [next, firsts_settled] at places
  case settles =>
    intro other
    have settles := kept.settles other
    rw [next, settling_settled] at settles
    change (self.settled ++ [idx]).count other + (settling ready).count other =
      self.ended.count other
    simp only [List.count_append, List.count_cons, List.count_nil] at settles ⊢
    omega
  case ascends =>
    have ascends := kept.ascends
    rwa [next, firsts_settled] at ascends

theorem Kept.passAbort {ready : List (Callback count)} (kept : self.Kept config [] 0)
    (next : self.ready = .abort :: ready) : Kept config [] 0 { self with ready := ready } := by
  refine { kept with
    grants := ?grants
    refuses := ?refuses
    places := ?places
    settles := ?settles
    ascends := ?ascends }
  case grants =>
    have grants := kept.grants
    rwa [next, granted_abort] at grants
  case refuses =>
    have refuses := kept.refuses
    rwa [next, refused_abort] at refuses
  case places =>
    have places := kept.places
    rwa [next, firsts_abort] at places
  case settles =>
    have settles := kept.settles
    rwa [next, settling_abort] at settles
  case ascends =>
    have ascends := kept.ascends
    rwa [next, firsts_abort] at ascends

theorem Kept.scheduleAbort (kept : self.Kept config [] 0) :
    (self.schedule [.abort]).Kept config [] 0 := by
  refine { kept with
    grants := ?grants
    refuses := ?refuses
    places := ?places
    settles := ?settles
    ascends := ?ascends }
  case grants =>
    change granted (self.ready ++ [.abort]) = _
    rw [granted_append, granted_abort, granted_nil, List.append_nil]
    exact kept.grants
  case refuses =>
    intro other
    change (refused (self.ready ++ [.abort])).count other = _
    rw [refused_append, refused_abort, refused_nil, List.append_nil]
    exact kept.refuses other
  case places =>
    intro other
    change (firsts (self.ready ++ [.abort])).count other + (self.waiters.map Prod.fst).count other +
      _ + self.ended.count other + _ = 1
    rw [firsts_append, firsts_abort, firsts_nil, List.append_nil]
    exact kept.places other
  case settles =>
    intro other
    change self.settled.count other + (settling (self.ready ++ [.abort])).count other = _
    rw [settling_append, settling_abort, settling_nil, List.append_nil]
    exact kept.settles other
  case ascends =>
    change (self.started ++ (hopeful self.waiters ++ firsts (self.ready ++ [Callback.abort]))).Pairwise
      (· < ·)
    rw [firsts_append, firsts_abort, firsts_nil, List.append_nil]
    exact kept.ascends

theorem Kept.turn {after : Loop ρ ε count} (kept : self.Kept config [] 0)
    (turns : self.turn ok config = some after) : after.Kept config [] 0 := by
  unfold Loop.turn at turns
  split at turns
  next => cases turns
  next callback ready next =>
    cases turns
    cases callback with
    | first idx => exact kept.first next
    | resume idx flag => exact kept.resume next
    | settled idx failed =>
        change (if config.failFast && failed then _ else _ : Loop ρ ε count).Kept config [] 0
        split
        · exact (kept.settle next).abort
        · exact kept.settle next
    | abort => exact (kept.passAbort next).abort

theorem Kept.next {after : Loop ρ ε count} {event : Event ρ ε count}
    (kept : self.Kept config [] 0) (steps : self.next ok config event = some after) :
    after.Kept config [] 0 := by
  cases event with
  | turn => exact kept.turn steps
  | finish idx ending =>
      obtain ⟨underway, same⟩ := Option.ite_none_right_eq_some.mp steps
      cases same
      exact kept.finish underway
  | cancel =>
      obtain ⟨_, same⟩ := Option.ite_none_right_eq_some.mp steps
      cases same
      unfold Loop.cancel
      split
      · exact kept.scheduleAbort
      · exact kept.cancelTasks _

/-! Whoever gives a permit up sees to it that nobody waits beside it. -/

theorem Prompt.wake {whom : List (Fin count)} {after : Fifo (Fin count)}
    (prompt : after.value = 0 ∨ (∀ waiter ∈ after.waiters, waiter.2 ≠ .pending) ∨
      woken after.waiters ≠ []) : (self.wake (whom, after)).Prompt := by
  intro semaphore same
  cases same
  exact prompt

theorem Prompt.first (prompt : self.Prompt) : (self.first ok idx).Prompt := by
  unfold Loop.first
  split
  next => exact prompt
  next =>
    split
    next => exact prompt
    next semaphore some =>
      split
      next locked =>
        intro other same
        cases same
        rw [woken_enqueue]
        by_cases exhausted : semaphore.value = 0
        · exact .inl exhausted
        · have occupied : semaphore.waiters.any (·.2 ≠ .cancelled) = true := by
            simpa [Fifo.locked, exhausted] using locked
          obtain ⟨⟨who, future⟩, among, hopes⟩ := List.any_eq_true.mp occupied
          refine .inr (.inr ?_)
          rcases prompt semaphore some with exhausted' | unwaiting | handed
          · exact absurd exhausted' exhausted
          · have woken' : future = .woken := by
              have pending := unwaiting _ among
              cases future
              · exact absurd rfl pending
              · rfl
              · cases hopes
            subst woken'
            exact List.ne_nil_of_mem (mem_woken.mpr among)
          · exact handed
      next unlocked =>
        intro other same
        cases same
        refine .inr (.inl ?_)
        intro waiter among waits
        have hopeless := (hopeful_of_unlocked (Bool.not_eq_true _ ▸ unlocked)).2
        have hopes : waiter.1 ∈ hopeful semaphore.waiters :=
          mem_hopeful among (by rw [waits]; decide)
        rw [hopeless] at hopes
        cases hopes

theorem Prompt.resume {flag : Bool} (kept : self.Kept config [] 0) (prompt : self.Prompt)
    {ready : List (Callback count)} :
    (Loop.resume ok { self with ready := ready } idx flag).Prompt := by
  unfold Loop.resume
  split
  next => exact prompt
  next semaphore some =>
    have inLine : InLine semaphore.waiters := kept.inLine_of some
    have woken : ∀ givesBack, (Loop.wake { self with ready := ready }
        (semaphore.leave idx givesBack)).Prompt := by
      intro givesBack
      apply Prompt.wake
      rcases (leave_wakes inLine idx givesBack).2 with exhausted | unwaiting
      · exact .inl exhausted
      · exact .inr (.inl unwaiting)
    simp only
    split
    · exact woken _
    · exact woken _

theorem Prompt.finish {ending : Ending ρ ε} (kept : self.Kept config [] 0)
    (prompt : self.Prompt) : (self.finish ok idx ending).Prompt := by
  unfold Loop.finish Loop.release
  split
  next => exact prompt
  next semaphore some =>
    have inLine : InLine semaphore.waiters := kept.inLine_of some
    obtain ⟨_, _, prompt⟩ := release_wakes inLine
    intro other same
    cases same
    exact .inr prompt

theorem Prompt.cancelTask (prompt : self.Prompt) (idx : Fin count) :
    (self.cancelTask idx).Prompt := by
  unfold Loop.cancelTask
  split
  next => exact prompt
  next =>
    split
    next => exact prompt
    next after cancels =>
      rw [Option.bind_eq_some_iff] at cancels
      obtain ⟨semaphore, some, cancels⟩ := cancels
      have cancels := cancel_cancels cancels
      intro other same
      cases same
      rw [cancels.value, cancels.woken]
      rcases prompt semaphore some with exhausted | unwaiting | handed
      · exact .inl exhausted
      · refine .inr (.inl ?_)
        intro waiter among waits
        have before := (cancels.pending waiter.1).mp (waits ▸ among)
        exact unwaiting _ before.1 rfl
      · exact .inr (.inr handed)

theorem Prompt.cancelTasks (tasks : List (Fin count)) :
    ∀ {self : Loop ρ ε count}, self.Prompt → (self.cancelTasks tasks).Prompt := by
  induction tasks with
  | nil => exact fun prompt => prompt
  | cons idx tasks induction => exact fun prompt => induction (prompt.cancelTask idx)

theorem Prompt.abort (prompt : self.Prompt) : (self.abort config).Prompt := by
  unfold Loop.abort
  split
  · exact prompt
  · apply Prompt.cancelTasks
    exact prompt

theorem Sound.next {after : Loop ρ ε count} {event : Event ρ ε count}
    (sound : self.Sound config) (steps : self.next ok config event = some after) :
    after.Sound config := by
  obtain ⟨kept, prompt⟩ := sound
  refine ⟨kept.next steps, ?_⟩
  cases event with
  | turn =>
      change self.turn ok config = some after at steps
      unfold Loop.turn at steps
      split at steps
      next => cases steps
      next callback ready _ =>
        cases steps
        cases callback with
        | first idx => exact Prompt.first prompt
        | resume idx flag => exact Prompt.resume kept prompt
        | settled idx failed =>
            change (if config.failFast && failed then _ else _ : Loop ρ ε count).Prompt
            split
            · exact Prompt.abort prompt
            · exact prompt
        | abort => exact Prompt.abort prompt
  | finish idx ending =>
      obtain ⟨_, same⟩ := Option.ite_none_right_eq_some.mp steps
      cases same
      exact Prompt.finish kept prompt
  | cancel =>
      obtain ⟨_, same⟩ := Option.ite_none_right_eq_some.mp steps
      cases same
      unfold Loop.cancel
      split
      · exact prompt
      · exact Prompt.cancelTasks _ prompt

theorem callbacks_of_firsts (tasks : List (Fin count)) :
    firsts (tasks.map Callback.first) = tasks ∧ granted (tasks.map Callback.first) = [] ∧
      refused (tasks.map Callback.first) = [] ∧ settling (tasks.map Callback.first) = [] := by
  induction tasks with
  | nil => exact ⟨rfl, rfl, rfl, rfl⟩
  | cons idx tasks induction =>
      obtain ⟨firsts, rest⟩ := induction
      exact ⟨congrArg (idx :: ·) firsts, rest⟩

theorem pairwise_finRange (count : Nat) : (List.finRange count).Pairwise (· < ·) := by
  rw [List.pairwise_iff_getElem]
  intro earlier later inside beyond before
  rw [List.getElem_finRange, List.getElem_finRange]
  exact before

theorem sound_initially (config : ConcurrentConfig count) :
    (config.loop : Loop ρ ε count).Sound config := by
  obtain ⟨firsts, granted, refused, settling⟩ := callbacks_of_firsts (List.finRange count)
  have waiters : (config.loop : Loop ρ ε count).waiters = [] := by
    unfold ConcurrentConfig.loop Loop.waiters
    cases config.concurrency <;> rfl
  refine {
    kept := {
      limited := Option.isSome_map
      permits := ?permits
      inLine := ?inLine
      grants := ?grants
      refuses := ?refuses
      places := ?places
      settles := ?settles
      ascends := ?ascends }
    prompt := ?prompt }
  case permits =>
    intro limit limits semaphore same
    change config.concurrency.map _ = some semaphore at same
    rw [limits] at same
    cases same
    rfl
  case inLine =>
    rw [waiters]
    exact List.Pairwise.nil
  case grants =>
    rw [waiters]
    exact granted
  case refuses =>
    intro other
    rw [waiters]
    exact congrArg (List.count other) refused
  case places =>
    intro other
    rw [waiters]
    change (Concurrent.firsts (List.map Callback.first _)).count other + 0 + 0 + 0 + 0 = 1
    rw [firsts, List.Nodup.count (List.nodup_finRange count), if_pos (List.mem_finRange other)]
  case settles =>
    intro other
    change 0 + (Concurrent.settling (List.map Callback.first _)).count other = 0
    rw [settling]
    rfl
  case ascends =>
    rw [waiters]
    change ([] ++ ([] ++ Concurrent.firsts (List.map Callback.first _))).Pairwise (· < ·)
    rw [firsts]
    exact pairwise_finRange count
  case prompt =>
    intro semaphore some
    refine .inr (.inl ?_)
    rw [waiters_of_some some] at waiters
    rw [waiters]
    exact fun _ wrong => (by cases wrong)

theorem sound_of_exec {self : Loop ρ ε count} {events : List (Event ρ ε count)}
    (runs : (config.system ok).exec config.loop events = some self) : self.Sound config :=
  System.exec_invariant (config.system ok) (fun sound steps => sound.next steps)
    (sound_initially config) runs

end Loop

end Cuprum.Concurrent
