import Mathlib.Data.List.Nodup

namespace Cuprum.Semaphore

universe u

/-- What the future of a waiter has come to. -/
inductive Future
  | pending
  | woken
  | cancelled
  deriving DecidableEq

/-- The permits that are free, and who waits for one, in the order of their arrival. -/
structure Fifo (α : Type u) where
  value : Nat
  waiters : List (α × Future) := []

variable {α : Type u}

def wakeFirst : List (α × Future) → Option (α × List (α × Future))
  | [] => none
  | (who, .pending) :: waiters => some (who, (who, .woken) :: waiters)
  | waiter :: waiters => (wakeFirst waiters).map fun woken => (woken.1, waiter :: woken.2)

/-- Those a permit has been handed to, who have yet to take it. -/
def woken (waiters : List (α × Future)) : List α :=
  (waiters.filter (·.2 = .woken)).map Prod.fst

/-- Those whose wait has been cancelled, who have yet to leave. -/
def cancelled (waiters : List (α × Future)) : List α :=
  (waiters.filter (·.2 = .cancelled)).map Prod.fst

/-- Those who have, or can still be handed, a permit. -/
def hopeful (waiters : List (α × Future)) : List α :=
  (waiters.filter (·.2 ≠ .cancelled)).map Prod.fst

namespace Fifo

def locked (self : Fifo α) : Bool :=
  self.value == 0 || self.waiters.any (·.2 ≠ .cancelled)

def wakeUpNext (self : Fifo α) : Option (α × Fifo α) :=
  (wakeFirst self.waiters).map fun woken => (woken.1, ⟨self.value - 1, woken.2⟩)

/-- Waiters are woken while there are permits, until there is no one to wake. -/
def wakeWhile : Nat → Fifo α → List α × Fifo α
  | 0, self => ([], self)
  | value + 1, self =>
      match self.wakeUpNext with
      | none => ([], self)
      | some (who, after) => (who :: (wakeWhile value after).1, (wakeWhile value after).2)

def acquire (self : Fifo α) : Fifo α :=
  { self with value := self.value - 1 }

def enqueue (self : Fifo α) (who : α) : Fifo α :=
  { self with waiters := self.waiters ++ [(who, .pending)] }

def release (self : Fifo α) : List α × Fifo α :=
  match wakeUpNext { self with value := self.value + 1 } with
  | none => ([], { self with value := self.value + 1 })
  | some (who, after) => ([who], after)

variable [DecidableEq α]

def mark (who : α) (waiter : α × Future) : α × Future :=
  if waiter = (who, .pending) then (who, .cancelled) else waiter

/-- A future that is pending can be cancelled. -/
def cancel (self : Fifo α) (who : α) : Option (Fifo α) :=
  if (who, .pending) ∈ self.waiters then
    some { self with waiters := self.waiters.map (mark who) }
  else none

/-- A waiter leaves; one that is thrown out gives back the permit it was handed. -/
def leave (self : Fifo α) (who : α) (givesBack : Bool) : List α × Fifo α :=
  wakeWhile (self.value + givesBack.toNat)
    ⟨self.value + givesBack.toNat, self.waiters.filter (·.1 ≠ who)⟩

end Fifo

/-! What has been woken stays in line: no one still waits before it. -/

def InLine (waiters : List (α × Future)) : Prop :=
  waiters.Pairwise fun earlier later => earlier.2 = .pending → later.2 ≠ .woken

theorem wakeFirst_none {waiters : List (α × Future)} :
    wakeFirst waiters = none ↔ ∀ waiter ∈ waiters, waiter.2 ≠ .pending := by
  induction waiters with
  | nil => simp [wakeFirst]
  | cons waiter waiters induction =>
      obtain ⟨who, future⟩ := waiter
      cases future <;> simp [wakeFirst, induction]

theorem wakeFirst_some {waiters after : List (α × Future)} {who : α}
    (wakes : wakeFirst waiters = some (who, after)) :
    ∃ front back, waiters = front ++ (who, .pending) :: back ∧
      after = front ++ (who, .woken) :: back ∧
        ∀ waiter ∈ front, waiter.2 ≠ .pending := by
  induction waiters generalizing after with
  | nil => cases wakes
  | cons waiter waiters induction =>
      obtain ⟨other, future⟩ := waiter
      by_cases waits : future = .pending
      · subst waits
        cases wakes
        exact ⟨[], waiters, rfl, rfl, by simp⟩
      · have passes : wakeFirst ((other, future) :: waiters) =
            (wakeFirst waiters).map fun woken => (woken.1, (other, future) :: woken.2) := by
          cases future <;> first | rfl | exact absurd rfl waits
        rw [passes, Option.map_eq_some_iff] at wakes
        obtain ⟨⟨next, rest⟩, wakes, same⟩ := wakes
        cases same
        obtain ⟨front, back, rfl, whole, unwaiting⟩ := induction wakes
        refine ⟨(other, future) :: front, back, rfl, congrArg _ whole, ?_⟩
        intro waiter among
        rcases List.mem_cons.mp among with rfl | among
        · exact waits
        · exact unwaiting waiter among

/-- What waking does: permits are handed, in their order, to the first who wait. -/
structure Wakes (before : Fifo α) (whom : List α) (after : Fifo α) : Prop where
  value : after.value + whom.length = before.value
  names : after.waiters.map Prod.fst = before.waiters.map Prod.fst
  woken : woken after.waiters = woken before.waiters ++ whom
  cancelled : cancelled after.waiters = cancelled before.waiters
  hopeful : hopeful after.waiters = hopeful before.waiters
  inLine : InLine after.waiters

theorem Wakes.refl {self : Fifo α} (inLine : InLine self.waiters) : Wakes self [] self where
  value := rfl
  names := rfl
  woken := (List.append_nil _).symm
  cancelled := rfl
  hopeful := rfl
  inLine := inLine

theorem Wakes.trans {first second third : Fifo α} {some more : List α}
    (wakes : Wakes first some second) (others : Wakes second more third) :
    Wakes first (some ++ more) third where
  value := by
    have before := wakes.value
    have after := others.value
    rw [List.length_append]
    omega
  names := others.names.trans wakes.names
  woken := by rw [others.woken, wakes.woken, List.append_assoc]
  cancelled := others.cancelled.trans wakes.cancelled
  hopeful := others.hopeful.trans wakes.hopeful
  inLine := others.inLine

theorem wakeUpNext_wakes {self after : Fifo α} {who : α} (inLine : InLine self.waiters)
    (permitted : 0 < self.value) (wakes : self.wakeUpNext = some (who, after)) :
    Wakes self [who] after := by
  unfold Fifo.wakeUpNext at wakes
  rw [Option.map_eq_some_iff] at wakes
  obtain ⟨⟨_, waiters⟩, wakes, same⟩ := wakes
  cases same
  obtain ⟨front, back, split, rfl, unwaiting⟩ := wakeFirst_some wakes
  unfold InLine at inLine
  rw [split, List.pairwise_append, List.pairwise_cons] at inLine
  obtain ⟨inFront, ⟨behind, inBack⟩, across⟩ := inLine
  have unwoken : back.filter (·.2 = .woken) = [] := by
    rw [List.filter_eq_nil_iff]
    intro waiter among woken
    exact behind waiter among rfl (of_decide_eq_true woken)
  refine {
    value := ?value
    names := ?names
    woken := ?woken
    cancelled := ?cancelled
    hopeful := ?hopeful
    inLine := ?inLine }
  case value =>
    change self.value - 1 + 1 = self.value
    omega
  case names =>
    simp [split]
  case woken =>
    simp [woken, split, unwoken]
  case cancelled =>
    simp [cancelled, split]
  case hopeful =>
    simp [hopeful, split]
  case inLine =>
    change List.Pairwise _ (front ++ (_, .woken) :: back)
    rw [List.pairwise_append, List.pairwise_cons]
    refine ⟨inFront, ⟨fun _ _ wrong => (by cases wrong), inBack⟩, ?_⟩
    intro waiter among later _ waits
    exact absurd waits (unwaiting waiter among)

/-- Who is left waiting is left without a permit. -/
theorem wakeWhile_wakes {self : Fifo α} (inLine : InLine self.waiters) :
    ∀ {value : Nat}, self.value = value →
      Wakes self (self.wakeWhile value).1 (self.wakeWhile value).2 ∧
        ((self.wakeWhile value).2.value = 0 ∨
          ∀ waiter ∈ (self.wakeWhile value).2.waiters, waiter.2 ≠ .pending) := by
  intro value
  induction value generalizing self with
  | zero => exact fun exhausted => ⟨.refl inLine, .inl exhausted⟩
  | succ value induction =>
      intro permits
      unfold Fifo.wakeWhile
      cases wakes : self.wakeUpNext with
      | none =>
          refine ⟨.refl inLine, .inr (wakeFirst_none.mp ?_)⟩
          simpa [Fifo.wakeUpNext] using wakes
      | some woken =>
          obtain ⟨who, after⟩ := woken
          have next := wakeUpNext_wakes inLine (by omega) wakes
          have left := next.value
          have rest := induction next.inLine (by simp only [List.length_singleton] at left; omega)
          exact ⟨next.trans rest.1, rest.2⟩

/-! Each operation, and who waits after it. -/

theorem mem_woken {waiters : List (α × Future)} {who : α} :
    who ∈ woken waiters ↔ (who, .woken) ∈ waiters := by
  simp [woken]

theorem mem_cancelled {waiters : List (α × Future)} {who : α} :
    who ∈ cancelled waiters ↔ (who, .cancelled) ∈ waiters := by
  simp [cancelled]

theorem future_unique {waiters : List (α × Future)} (distinct : (waiters.map Prod.fst).Nodup)
    {who : α} {first second : Future} (here : (who, first) ∈ waiters)
    (there : (who, second) ∈ waiters) : first = second :=
  congrArg Prod.snd (List.inj_on_of_nodup_map distinct here there rfl)

theorem woken_sublist (waiters : List (α × Future)) :
    List.Sublist (woken waiters) (waiters.map Prod.fst) :=
  List.filter_sublist.map _

theorem mem_hopeful {waiters : List (α × Future)} {who : α} {future : Future}
    (among : (who, future) ∈ waiters) (hopes : future ≠ .cancelled) : who ∈ hopeful waiters :=
  List.mem_map_of_mem (List.mem_filter.mpr ⟨among, by simpa using hopes⟩)

/-- Who has been woken first has nobody left to wait before it. -/
theorem InLine.hopeful_eq {waiters : List (α × Future)} {who : α} {others : List α}
    (inLine : InLine waiters) (first : woken waiters = who :: others) :
    ∃ behind, hopeful waiters = who :: behind := by
  induction waiters with
  | nil => cases first
  | cons waiter waiters induction =>
      obtain ⟨other, future⟩ := waiter
      have apart := List.pairwise_cons.mp inLine
      cases future with
      | pending =>
          have among : who ∈ woken ((other, Future.pending) :: waiters) := by
            rw [first]
            exact List.mem_cons_self
          rcases List.mem_cons.mp (mem_woken.mp among) with same | among
          · cases same
          · exact absurd rfl (apart.1 _ among rfl)
      | woken =>
          have same : other :: woken waiters = who :: others := by simpa [woken] using first
          cases same
          exact ⟨hopeful waiters, by simp [hopeful]⟩
      | cancelled =>
          obtain ⟨behind, same⟩ := induction apart.2 (by simpa [woken] using first)
          exact ⟨behind, by simpa [hopeful] using same⟩

@[simp] theorem woken_enqueue (self : Fifo α) (who : α) :
    woken (self.enqueue who).waiters = woken self.waiters := by
  simp [woken, Fifo.enqueue]

@[simp] theorem cancelled_enqueue (self : Fifo α) (who : α) :
    cancelled (self.enqueue who).waiters = cancelled self.waiters := by
  simp [cancelled, Fifo.enqueue]

@[simp] theorem hopeful_enqueue (self : Fifo α) (who : α) :
    hopeful (self.enqueue who).waiters = hopeful self.waiters ++ [who] := by
  simp [hopeful, Fifo.enqueue]

@[simp] theorem names_enqueue (self : Fifo α) (who : α) :
    (self.enqueue who).waiters.map Prod.fst = self.waiters.map Prod.fst ++ [who] := by
  simp [Fifo.enqueue]

theorem InLine.enqueue {self : Fifo α} (inLine : InLine self.waiters) (who : α) :
    InLine (self.enqueue who).waiters := by
  refine List.pairwise_append.mpr ⟨inLine, List.pairwise_singleton _ _, ?_⟩
  intro earlier _ later among _
  rw [List.mem_singleton.mp among]
  exact fun wrong => (by cases wrong)

theorem release_wakes {self : Fifo α} (inLine : InLine self.waiters) :
    Wakes { self with value := self.value + 1 } self.release.1 self.release.2 ∧
      self.release.1.length ≤ 1 ∧
        ((∀ waiter ∈ self.release.2.waiters, waiter.2 ≠ .pending) ∨
          woken self.release.2.waiters ≠ []) := by
  unfold Fifo.release
  cases wakes : Fifo.wakeUpNext { self with value := self.value + 1 } with
  | none =>
      refine ⟨.refl inLine, by simp, .inl (wakeFirst_none.mp ?_)⟩
      simpa [Fifo.wakeUpNext] using wakes
  | some next =>
      obtain ⟨who, after⟩ := next
      have next : Wakes { self with value := self.value + 1 } [who] after :=
        wakeUpNext_wakes inLine (Nat.succ_pos _) wakes
      refine ⟨next, by simp, .inr ?_⟩
      rw [next.woken]
      simp

theorem release_idle {self : Fifo α} (idle : ∀ waiter ∈ self.waiters, waiter.2 ≠ .pending) :
    self.release = ([], { self with value := self.value + 1 }) := by
  have none : wakeFirst self.waiters = none := wakeFirst_none.mpr idle
  unfold Fifo.release Fifo.wakeUpNext
  rw [none]
  rfl

theorem wakeWhile_idle {self : Fifo α} (idle : ∀ waiter ∈ self.waiters, waiter.2 ≠ .pending)
    (value : Nat) : self.wakeWhile value = ([], self) := by
  have none : wakeFirst self.waiters = none := wakeFirst_none.mpr idle
  cases value with
  | zero => rfl
  | succ value =>
      unfold Fifo.wakeWhile Fifo.wakeUpNext
      rw [none]
      rfl

section Decidable

variable [DecidableEq α]

theorem leave_idle {self : Fifo α} (idle : ∀ waiter ∈ self.waiters, waiter.2 ≠ .pending)
    (who : α) (givesBack : Bool) :
    self.leave who givesBack =
      ([], ⟨self.value + givesBack.toNat, self.waiters.filter (·.1 ≠ who)⟩) :=
  wakeWhile_idle (fun waiter among => idle waiter (List.mem_filter.mp among).1) _

theorem filter_ne_of_not_mem {who : α} {others : List α} (absent : who ∉ others) :
    others.filter (· ≠ who) = others := by
  rw [List.filter_eq_self]
  intro other among
  exact decide_eq_true fun same => absent (same ▸ among)

theorem filter_ne_cons {who : α} {others : List α} (absent : who ∉ others) :
    (who :: others).filter (· ≠ who) = others := by
  rw [List.filter_cons_of_neg (by simp), filter_ne_of_not_mem absent]

theorem count_filter_ne (who : α) (others : List α) :
    (others.filter (· ≠ who)).count who = 0 := by
  rw [List.count_eq_zero, List.mem_filter]
  exact fun among => of_decide_eq_true among.2 rfl

theorem names_filter (waiters : List (α × Future)) (who : α) :
    (waiters.filter (·.1 ≠ who)).map Prod.fst = (waiters.map Prod.fst).filter (· ≠ who) := by
  rw [List.filter_map]
  rfl

theorem woken_filter (waiters : List (α × Future)) (who : α) :
    woken (waiters.filter (·.1 ≠ who)) = (woken waiters).filter (· ≠ who) := by
  unfold woken
  rw [List.filter_map, List.filter_filter, List.filter_filter]
  congr 2
  funext waiter
  exact Bool.and_comm _ _

theorem cancelled_filter (waiters : List (α × Future)) (who : α) :
    cancelled (waiters.filter (·.1 ≠ who)) = (cancelled waiters).filter (· ≠ who) := by
  unfold cancelled
  rw [List.filter_map, List.filter_filter, List.filter_filter]
  congr 2
  funext waiter
  exact Bool.and_comm _ _

theorem hopeful_filter (waiters : List (α × Future)) (who : α) :
    hopeful (waiters.filter (·.1 ≠ who)) = (hopeful waiters).filter (· ≠ who) := by
  unfold hopeful
  rw [List.filter_map, List.filter_filter, List.filter_filter]
  congr 2
  funext waiter
  exact Bool.and_comm _ _

/-- Who has left is no longer among the waiters, and nobody waits beside a free permit. -/
theorem leave_wakes {self : Fifo α} (inLine : InLine self.waiters) (who : α)
    (givesBack : Bool) :
    Wakes ⟨self.value + givesBack.toNat, self.waiters.filter (·.1 ≠ who)⟩
        (self.leave who givesBack).1 (self.leave who givesBack).2 ∧
      ((self.leave who givesBack).2.value = 0 ∨
        ∀ waiter ∈ (self.leave who givesBack).2.waiters, waiter.2 ≠ .pending) :=
  have kept : InLine (self.waiters.filter (·.1 ≠ who)) := List.Pairwise.filter _ inLine
  wakeWhile_wakes kept rfl

/-- What a cancelled wait leaves of the others. -/
structure Cancels (before : Fifo α) (who : α) (after : Fifo α) : Prop where
  waited : (who, .pending) ∈ before.waiters
  value : after.value = before.value
  names : after.waiters.map Prod.fst = before.waiters.map Prod.fst
  woken : woken after.waiters = woken before.waiters
  cancelled : ∀ other, other ∈ cancelled after.waiters ↔
    other = who ∨ other ∈ cancelled before.waiters
  hopeful : List.Sublist (hopeful after.waiters) (hopeful before.waiters)
  pending : ∀ other, (other, .pending) ∈ after.waiters ↔
    (other, .pending) ∈ before.waiters ∧ other ≠ who
  inLine : InLine before.waiters → InLine after.waiters

theorem fst_comp_mark (who : α) : Prod.fst ∘ Fifo.mark who = Prod.fst := by
  funext waiter
  by_cases same : waiter = (who, .pending) <;> simp [Fifo.mark, same]

theorem cancel_cancels {self after : Fifo α} {who : α}
    (cancels : self.cancel who = some after) : Cancels self who after := by
  unfold Fifo.cancel at cancels
  split at cancels
  next waited =>
    cases cancels
    refine {
      waited := waited
      value := rfl
      names := ?names
      woken := ?woken
      cancelled := ?cancelled
      hopeful := ?hopeful
      pending := ?pending
      inLine := ?inLine }
    case names =>
      rw [List.map_map, fst_comp_mark]
    case woken =>
      have same : ((fun waiter : α × Future => decide (waiter.2 = .woken)) ∘ Fifo.mark who) =
          fun waiter => decide (waiter.2 = .woken) := by
        funext waiter
        by_cases same : waiter = (who, .pending) <;> simp [Fifo.mark, same]
      unfold woken
      rw [List.filter_map, List.map_map, fst_comp_mark, same]
    case cancelled =>
      intro other
      rw [mem_cancelled, mem_cancelled, List.mem_map]
      constructor
      · rintro ⟨waiter, among, same⟩
        unfold Fifo.mark at same
        split at same
        · exact .inl (congrArg Prod.fst same).symm
        · exact .inr (same ▸ among)
      · rintro (rfl | among)
        · exact ⟨_, waited, if_pos rfl⟩
        · exact ⟨_, among, if_neg (by simp)⟩
    case hopeful =>
      unfold hopeful
      rw [List.filter_map, List.map_map, fst_comp_mark]
      apply List.Sublist.map
      apply List.monotone_filter_right
      intro waiter kept
      by_cases same : waiter = (who, .pending)
      · rw [same]
        rfl
      · simpa [Fifo.mark, same] using kept
    case pending =>
      intro other
      rw [List.mem_map]
      constructor
      · rintro ⟨waiter, among, same⟩
        unfold Fifo.mark at same
        split at same
        · cases same
        · next different =>
            subst same
            exact ⟨among, fun equal => different (by rw [equal])⟩
      · rintro ⟨among, different⟩
        exact ⟨_, among, if_neg (by simpa using different)⟩
    case inLine =>
      intro inLine
      refine List.pairwise_map.mpr (inLine.imp ?_)
      intro earlier later apart
      by_cases first : earlier = (who, .pending) <;> by_cases second : later = (who, .pending) <;>
        simp_all [Fifo.mark]
  next => cases cancels

end Decidable

end Cuprum.Semaphore
