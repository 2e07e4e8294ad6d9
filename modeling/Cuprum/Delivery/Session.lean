import Cuprum.Delivery.Conservation

namespace Cuprum.Delivery

open Transition

/-! A presentation session that is closed beside the worker that writes into it.  Each
holds the writer lock for a whole write, or for the whole close. -/

inductive Holder
  | worker
  | closer
  deriving DecidableEq

/-- The daemon thread that closes the session. -/
inductive CloserStage
  | absent
  | starting
  | waiting
  | closing
  | finished
  deriving DecidableEq

/-- `_SinkBracket` and the delivery worker that shares its writer lock. -/
structure SinkBracket where
  worker : DeliveryWorker
  writerLock : Option Holder := none
  session : Bool := true
  closer : CloserStage := .absent
  closes : Nat := 0

/-- Whether the worker is past its check, and about to write or writing. -/
def WorkerStage.writes : WorkerStage → Bool
  | .cleared _ | .writing _ => true
  | .fetching | .checking _ | .returned _ | .raised _ | .stopped => false

/-- Whether the worker is about to check if it is to give up. -/
def WorkerStage.checks : WorkerStage → Bool
  | .checking _ => true
  | .fetching | .cleared _ | .writing _ | .returned _ | .raised _ | .stopped => false

/-- Whether `_deliver` is over, and the worker has yet to note how. -/
def WorkerStage.delivered : WorkerStage → Bool
  | .returned _ | .raised _ => true
  | .fetching | .checking _ | .cleared _ | .writing _ | .stopped => false

namespace SinkBracket

inductive Step
  /-- A step of the loop, of the worker thread or of its close. -/
  | worker (step : DeliveryWorker.Step)
  | acquire
  | release
  | takeSession
  /-- The thread that is to close the session starts, or cannot. -/
  | startCloser (starts : Bool)
  | beginClose
  | endClose

/-- What `_deliver` does while it holds the lock, and what follows once it has let go. -/
def permits (self : SinkBracket) : DeliveryWorker.Step → Bool
  | .checkAbandoned | .beginWrite | .endWrite _ => self.writerLock = some .worker
  | .settle => self.writerLock ≠ some .worker
  | .offer .. | .nextItem | .beginClose | .finishClose _ => true

/-- The run closes its worker before it closes its session. -/
def next (self : SinkBracket) : Step → Option SinkBracket
  | .worker step =>
      if self.permits step then
        (self.worker.next step).map fun worker => { self with worker }
      else none
  | .acquire =>
      if self.writerLock = none ∧ self.worker.stage.checks then
        some { self with writerLock := some .worker }
      else none
  | .release =>
      if self.writerLock = some .worker ∧ self.worker.stage.delivered then
        some { self with writerLock := none }
      else none
  | .takeSession =>
      if self.session ∧ self.worker.closeResult.isSome then
        some { self with session := false, closer := .starting }
      else none
  | .startCloser starts =>
      if self.closer = .starting then
        if starts then some { self with closer := .waiting }
        else some { self with session := true, closer := .absent }
      else none
  | .beginClose =>
      if self.closer = .waiting ∧ self.writerLock = none then
        some { self with
          writerLock := some .closer
          closer := .closing
          closes := self.closes + 1 }
      else none
  | .endClose =>
      if self.closer = .closing then some { self with writerLock := none, closer := .finished }
      else none

end SinkBracket

def sessionSystem (maxQueuedBytes : Nat) : System SinkBracket SinkBracket.Step :=
  ⟨{ worker := .initial maxQueuedBytes }, SinkBracket.next⟩

namespace DeliveryWorker

/-- Once `close` has returned, the worker has stopped or gives up what it holds. -/
def GivesUp (self : DeliveryWorker) : Prop :=
  self.closeResult.isSome = true → self.abandoned = true ∨ self.stage = .stopped

theorem GivesUp.of_same {self after : DeliveryWorker} (gives : self.GivesUp)
    (running : self.stage ≠ .stopped) (reports : after.closeResult = self.closeResult)
    (abandons : after.abandoned = self.abandoned) : after.GivesUp := by
  intro reported
  rw [abandons]
  exact .inl ((gives (reports ▸ reported)).resolve_right running)

theorem GivesUp.preserved {self after : DeliveryWorker} (gives : self.GivesUp)
    (moves : self.Moves after) : after.GivesUp := by
  have running {stage : WorkerStage} (here : self.stage = stage) (moving : stage ≠ .stopped) :
      self.stage ≠ .stopped := here ▸ moving
  cases moves with
  | offer stream payload flush diagnostics =>
      obtain ⟨same, abandoned, stage, _⟩ := self.offer_unchanged stream payload flush diagnostics
      intro reported
      rw [abandoned, stage]
      exact gives (same ▸ reported)
  | nextItem stage =>
      have moving := running stage WorkerStage.noConfusion
      unfold DeliveryWorker.nextItem
      split
      next => exact gives.of_same moving rfl rfl
      next => split <;> exact gives.of_same moving rfl rfl
  | checkAbandoned item stage =>
      have moving := running stage WorkerStage.noConfusion
      unfold DeliveryWorker.checkAbandoned
      split <;> exact gives.of_same moving rfl rfl
  | beginWrite item stage => exact gives.of_same (running stage WorkerStage.noConfusion) rfl rfl
  | endWrite item outcome stage =>
      exact gives.of_same (running stage WorkerStage.noConfusion) rfl rfl
  | settleReturned item stage =>
      have moving := running stage WorkerStage.noConfusion
      unfold DeliveryWorker.settleReturned
      split <;> exact gives.of_same moving rfl rfl
  | settleRaised item stage =>
      intro _
      unfold DeliveryWorker.settleRaised
      split <;> exact .inr (by simp [discardQueued_eq])
  | beginClose => exact gives
  | finishClose alive closing unfinished lives =>
      intro _
      rw [finishClose_eq]
      by_cases stopped : self.stage = .stopped
      · exact .inr stopped
      · left
        rw [lives stopped]
        rfl

theorem GivesUp.of_reachable {maxQueuedBytes : Nat} {worker : DeliveryWorker}
    (reachable : (deliverySystem maxQueuedBytes).Reachable worker) : worker.GivesUp :=
  reachable.invariant (fun reported => (by cases reported))
    fun gives moved => gives.preserved (moves_of_next moved)

/-- Only a check that is passed leads to a write, and a close is reported for good. -/
theorem writes_of_next {self after : DeliveryWorker} {step : Step}
    (moved : self.next step = some after) :
    (after.stage.writes = true → self.stage.writes = true ∨
      step = .checkAbandoned ∧ self.abandoned = false ∧ self.stage ≠ .stopped) ∧
    (self.closeResult.isSome = true → after.closeResult.isSome = true) := by
  cases step with
  | offer stream payload flush diagnostics =>
      cases moved
      obtain ⟨same, _, stage, _⟩ := self.offer_unchanged stream payload flush diagnostics
      rw [same, stage]
      exact ⟨.inl, id⟩
  | nextItem =>
      obtain ⟨_, equal⟩ := Option.ite_none_right_eq_some.mp moved
      cases equal
      unfold DeliveryWorker.nextItem
      split
      next => exact ⟨fun wrong => (by cases wrong), id⟩
      next => split <;> exact ⟨fun wrong => (by cases wrong), id⟩
  | checkAbandoned =>
      cases stage : self.stage <;> simp only [DeliveryWorker.next, stage] at moved <;> cases moved
      unfold DeliveryWorker.checkAbandoned
      split
      next => exact ⟨fun wrong => (by cases wrong), id⟩
      next working =>
        exact ⟨fun _ => .inr ⟨rfl, by simpa using working, WorkerStage.noConfusion⟩, id⟩
  | beginWrite =>
      cases stage : self.stage <;> simp only [DeliveryWorker.next, stage] at moved <;> cases moved
      exact ⟨fun _ => .inl rfl, id⟩
  | endWrite outcome =>
      cases stage : self.stage <;> simp only [DeliveryWorker.next, stage] at moved <;> cases moved
      cases outcome <;> exact ⟨fun wrong => (by cases wrong), id⟩
  | settle =>
      cases stage : self.stage <;> simp only [DeliveryWorker.next, stage] at moved <;> cases moved
      · unfold DeliveryWorker.settleReturned
        split <;> exact ⟨fun wrong => (by cases wrong), id⟩
      · unfold DeliveryWorker.settleRaised
        split
        next => exact ⟨fun wrong => (by cases wrong), id⟩
        next =>
          rw [discardQueued_eq]
          exact ⟨fun wrong => (by cases wrong), id⟩
  | beginClose =>
      obtain ⟨_, equal⟩ := Option.ite_none_left_eq_some.mp moved
      cases equal
      exact ⟨.inl, id⟩
  | finishClose alive =>
      obtain ⟨_, equal⟩ := Option.ite_none_right_eq_some.mp moved
      cases equal
      rw [finishClose_eq]
      exact ⟨.inl, fun _ => rfl⟩

/-- The worker is done with an item when it notes how its delivery ended. -/
theorem delivers_of_next {self after : DeliveryWorker} {step : Step}
    (moved : self.next step = some after)
    (delivers : self.stage.checks = true ∨ self.stage.writes = true ∨ self.stage.delivered = true)
    (delivering : step ≠ .settle) :
    after.stage.checks = true ∨ after.stage.writes = true ∨ after.stage.delivered = true := by
  cases step with
  | offer stream payload flush diagnostics =>
      cases moved
      rw [(self.offer_unchanged stream payload flush diagnostics).2.2.1]
      exact delivers
  | nextItem =>
      obtain ⟨⟨stage, _⟩, _⟩ := Option.ite_none_right_eq_some.mp moved
      rw [stage] at delivers
      simp [WorkerStage.checks, WorkerStage.writes, WorkerStage.delivered] at delivers
  | checkAbandoned =>
      cases stage : self.stage <;> simp only [DeliveryWorker.next, stage] at moved <;> cases moved
      unfold DeliveryWorker.checkAbandoned
      split
      next => exact .inr (.inr rfl)
      next => exact .inr (.inl rfl)
  | beginWrite =>
      cases stage : self.stage <;> simp only [DeliveryWorker.next, stage] at moved <;> cases moved
      exact .inr (.inl rfl)
  | endWrite outcome =>
      cases stage : self.stage <;> simp only [DeliveryWorker.next, stage] at moved <;> cases moved
      cases outcome <;> exact .inr (.inr rfl)
  | settle => exact absurd rfl delivering
  | beginClose =>
      obtain ⟨_, equal⟩ := Option.ite_none_left_eq_some.mp moved
      cases equal
      exact delivers
  | finishClose alive =>
      obtain ⟨_, equal⟩ := Option.ite_none_right_eq_some.mp moved
      cases equal
      rw [finishClose_eq]
      exact delivers

theorem begun_of_next {self after : DeliveryWorker} {step : Step}
    (moved : self.next step = some after) (quiet : self.stage.writes = false) :
    after.ledger.begun = self.ledger.begun := by
  cases step with
  | offer stream payload flush diagnostics =>
      cases moved
      exact (self.offer_unchanged stream payload flush diagnostics).2.2.2
  | nextItem =>
      obtain ⟨_, equal⟩ := Option.ite_none_right_eq_some.mp moved
      cases equal
      unfold DeliveryWorker.nextItem
      split
      next => rfl
      next => split <;> rfl
  | checkAbandoned =>
      cases stage : self.stage <;> simp only [DeliveryWorker.next, stage] at moved <;> cases moved
      unfold DeliveryWorker.checkAbandoned
      split <;> rfl
  | beginWrite =>
      cases stage : self.stage <;> simp only [DeliveryWorker.next, stage] at moved <;> cases moved
      rw [stage] at quiet
      cases quiet
  | endWrite outcome =>
      cases stage : self.stage <;> simp only [DeliveryWorker.next, stage] at moved <;> cases moved
      rfl
  | settle =>
      cases stage : self.stage <;> simp only [DeliveryWorker.next, stage] at moved <;> cases moved
      · unfold DeliveryWorker.settleReturned
        split <;> rfl
      · unfold DeliveryWorker.settleRaised
        split
        next => rfl
        next =>
          rw [discardQueued_eq]
  | beginClose =>
      obtain ⟨_, equal⟩ := Option.ite_none_left_eq_some.mp moved
      cases equal
      rfl
  | finishClose alive =>
      obtain ⟨_, equal⟩ := Option.ite_none_right_eq_some.mp moved
      cases equal
      rw [finishClose_eq]

end DeliveryWorker

/-! Who writes and who closes. -/

def CloserStage.closes : CloserStage → Nat
  | .closing | .finished => 1
  | .absent | .starting | .waiting => 0

namespace SinkBracket

variable {maxQueuedBytes : Nat} {self after : SinkBracket}

/-- The worker writes, and the closer closes, with the lock; the session is in one place,
and leaves the bracket once the worker has been told to give up. -/
structure Guarded (maxQueuedBytes : Nat) (bracket : SinkBracket) : Prop where
  delivers : (deliverySystem maxQueuedBytes).Reachable bracket.worker
  writes : bracket.worker.stage.writes = true → bracket.writerLock = some .worker
  holds : bracket.writerLock = some .worker → bracket.worker.stage.checks = true ∨
    bracket.worker.stage.writes = true ∨ bracket.worker.stage.delivered = true
  closing : bracket.closer = .closing ↔ bracket.writerLock = some .closer
  placed : bracket.session = true ↔ bracket.closer = .absent
  told : bracket.session = false → bracket.worker.closeResult.isSome = true
  once : bracket.closes = bracket.closer.closes
  silent : bracket.closer.closes = 1 → bracket.worker.stage.writes = false

theorem Guarded.initially (maxQueuedBytes : Nat) :
    Guarded maxQueuedBytes { worker := .initial maxQueuedBytes } where
  delivers := ⟨[], rfl⟩
  writes := fun wrong => (by cases wrong)
  holds := fun wrong => (by cases wrong)
  closing := by simp
  placed := by simp
  told := fun wrong => (by cases wrong)
  once := rfl
  silent := fun wrong => (by cases wrong)

theorem Guarded.worker {step : DeliveryWorker.Step} {worker : DeliveryWorker}
    (guarded : self.Guarded maxQueuedBytes) (permitted : self.permits step = true)
    (moved : self.worker.next step = some worker) :
    Guarded maxQueuedBytes { self with worker } := by
  obtain ⟨writes, reports⟩ := DeliveryWorker.writes_of_next moved
  refine { guarded with
    delivers := ?_
    writes := ?_
    holds := ?_
    told := fun away => reports (guarded.told away)
    silent := ?_ }
  · have exec : (deliverySystem maxQueuedBytes).exec self.worker [step] = some worker :=
      Option.bind_eq_some_iff.mpr ⟨worker, moved, rfl⟩
    exact guarded.delivers.exec exec
  · intro writing
    rcases writes writing with before | ⟨rfl, _⟩
    · exact guarded.writes before
    · exact of_decide_eq_true permitted
  · intro held
    exact DeliveryWorker.delivers_of_next moved (guarded.holds held) (fun settles => by
      rw [settles] at permitted
      exact of_decide_eq_true permitted held)
  · intro closed
    cases writing : worker.stage.writes with
    | false => rfl
    | true =>
        have quiet := guarded.silent closed
        have away : self.session = false := by
          cases session : self.session with
          | false => rfl
          | true =>
              have absent := guarded.placed.mp session
              rw [absent] at closed
              cases closed
        have gives := DeliveryWorker.GivesUp.of_reachable guarded.delivers (guarded.told away)
        rcases writes writing with before | ⟨_, working, running⟩
        · rw [quiet] at before
          cases before
        · rcases gives with abandoned | stopped
          · rw [working] at abandoned
            cases abandoned
          · exact absurd stopped running

theorem Guarded.next {step : Step} (guarded : self.Guarded maxQueuedBytes)
    (steps : self.next step = some after) : after.Guarded maxQueuedBytes := by
  cases step with
  | worker step =>
      obtain ⟨permitted, mapped⟩ := Option.ite_none_right_eq_some.mp steps
      obtain ⟨worker, moved, rfl⟩ := Option.map_eq_some_iff.mp mapped
      exact guarded.worker permitted moved
  | acquire =>
      obtain ⟨⟨free, checks⟩, same⟩ := Option.ite_none_right_eq_some.mp steps
      cases same
      refine { guarded with
        writes := fun _ => rfl
        holds := fun _ => .inl checks
        closing := ?_ }
      rw [guarded.closing, free]
      simp
  | release =>
      obtain ⟨⟨held, delivered⟩, same⟩ := Option.ite_none_right_eq_some.mp steps
      cases same
      refine { guarded with
        writes := ?_
        holds := fun wrong => (by cases wrong)
        closing := ?_ }
      · intro writes
        change self.worker.stage.writes = true at writes
        cases stage : self.worker.stage <;>
          simp [stage, WorkerStage.writes, WorkerStage.delivered] at writes delivered
      · rw [guarded.closing, held]
        simp
  | takeSession =>
      obtain ⟨⟨there, reported⟩, same⟩ := Option.ite_none_right_eq_some.mp steps
      cases same
      have absent := guarded.placed.mp there
      have closing := guarded.closing
      have once := guarded.once
      rw [absent] at closing once
      exact { guarded with
        closing := by simpa using closing
        placed := by simp
        told := fun _ => reported
        once := once
        silent := fun wrong => (by cases wrong) }
  | startCloser starts =>
      obtain ⟨starting, same⟩ := Option.ite_none_right_eq_some.mp steps
      have closing := guarded.closing
      have once := guarded.once
      have placed := guarded.placed
      rw [starting] at closing once placed
      have away : self.session = false := by simpa using placed
      cases starts with
      | true =>
          cases same
          exact { guarded with
            closing := by simpa using closing
            placed := by simp [away]
            once := once
            silent := fun wrong => (by cases wrong) }
      | false =>
          cases same
          exact { guarded with
            closing := by simpa using closing
            placed := by simp
            told := fun wrong => (by cases wrong)
            once := once
            silent := fun wrong => (by cases wrong) }
  | beginClose =>
      obtain ⟨⟨waiting, free⟩, same⟩ := Option.ite_none_right_eq_some.mp steps
      cases same
      have once := guarded.once
      have placed := guarded.placed
      rw [waiting] at once placed
      have quiet : self.worker.stage.writes = false := by
        cases writes : self.worker.stage.writes with
        | false => rfl
        | true =>
            have held := guarded.writes writes
            rw [free] at held
            cases held
      exact { guarded with
        writes := fun writes => absurd writes (by rw [quiet]; exact Bool.false_ne_true)
        holds := fun wrong => (by cases wrong)
        closing := by simp
        placed := by simpa using placed
        once := congrArg (· + 1) once
        silent := fun _ => quiet }
  | endClose =>
      obtain ⟨closing, same⟩ := Option.ite_none_right_eq_some.mp steps
      cases same
      have once := guarded.once
      have placed := guarded.placed
      rw [closing] at once placed
      have quiet := guarded.silent (by rw [closing]; rfl)
      exact { guarded with
        writes := fun writes => absurd writes (by rw [quiet]; exact Bool.false_ne_true)
        holds := fun wrong => (by cases wrong)
        closing := by simp
        placed := by simpa using placed
        once := once
        silent := fun _ => quiet }

theorem guarded_of_exec {steps : List Step}
    (runs : (sessionSystem maxQueuedBytes).exec (sessionSystem maxQueuedBytes).initial steps =
      some self) : self.Guarded maxQueuedBytes :=
  System.exec_invariant _ (fun guarded moved => guarded.next moved)
    (Guarded.initially maxQueuedBytes) runs

theorem Guarded.closed_next {step : Step} (guarded : self.Guarded maxQueuedBytes)
    (closed : self.closes = 1) (steps : self.next step = some after) :
    after.closes = 1 ∧ after.worker.ledger.begun = self.worker.ledger.begun := by
  have closer : self.closer.closes = 1 := guarded.once.symm.trans closed
  cases step with
  | worker step =>
      obtain ⟨_, mapped⟩ := Option.ite_none_right_eq_some.mp steps
      obtain ⟨worker, moved, rfl⟩ := Option.map_eq_some_iff.mp mapped
      exact ⟨closed, DeliveryWorker.begun_of_next moved (guarded.silent closer)⟩
  | acquire | release | endClose =>
      obtain ⟨_, same⟩ := Option.ite_none_right_eq_some.mp steps
      cases same
      exact ⟨closed, rfl⟩
  | takeSession =>
      obtain ⟨⟨there, _⟩, _⟩ := Option.ite_none_right_eq_some.mp steps
      rw [guarded.placed.mp there] at closer
      cases closer
  | startCloser starts =>
      obtain ⟨starting, _⟩ := Option.ite_none_right_eq_some.mp steps
      rw [starting] at closer
      cases closer
  | beginClose =>
      obtain ⟨⟨waiting, _⟩, _⟩ := Option.ite_none_right_eq_some.mp steps
      rw [waiting] at closer
      cases closer

theorem Guarded.closed_exec {later : SinkBracket} {steps : List Step}
    (guarded : self.Guarded maxQueuedBytes) (closed : self.closes = 1)
    (runs : (sessionSystem maxQueuedBytes).exec self steps = some later) :
    later.Guarded maxQueuedBytes ∧ later.closes = 1 ∧
      later.worker.ledger.begun = self.worker.ledger.begun := by
  have preserved : ∀ {state : SinkBracket} {step after},
      (state.Guarded maxQueuedBytes ∧ state.closes = 1 ∧
        state.worker.ledger.begun = self.worker.ledger.begun) →
        (sessionSystem maxQueuedBytes).next state step = some after →
          after.Guarded maxQueuedBytes ∧ after.closes = 1 ∧
            after.worker.ledger.begun = self.worker.ledger.begun := by
    intro state step after holds moved
    obtain ⟨guarded, closed, begun⟩ := holds
    obtain ⟨still, same⟩ := guarded.closed_next closed moved
    exact ⟨guarded.next moved, still, same.trans begun⟩
  exact System.exec_invariant _ preserved ⟨guarded, closed, rfl⟩ runs

/-- The session is closed once at most, never while the worker writes into it, and the
worker writes nothing from then on; a closer does not wait for a worker that has stopped.
All the while the worker is one that delivers as it does on its own. -/
theorem session_closes_alone {steps : List Step}
    (runs : (sessionSystem maxQueuedBytes).exec (sessionSystem maxQueuedBytes).initial steps =
      some self) :
    (deliverySystem maxQueuedBytes).Reachable self.worker ∧
    self.closes ≤ 1 ∧
    (self.closer = .closing → self.worker.stage.writes = false) ∧
    (self.closer = .waiting → self.worker.stage = .stopped →
      (self.next .beginClose).isSome = true) ∧
    (0 < self.closes → ∀ more later,
      (sessionSystem maxQueuedBytes).exec self more = some later →
        later.closes = 1 ∧ later.worker.stage.writes = false ∧
          later.worker.ledger.begun = self.worker.ledger.begun) := by
  have guarded := guarded_of_exec runs
  have once := guarded.once
  refine ⟨guarded.delivers, ?_, ?_, ?_, ?_⟩
  · rw [once]
    cases self.closer <;> decide
  · intro closing
    exact guarded.silent (by rw [closing]; rfl)
  · intro waiting stopped
    have free : self.writerLock = none := by
      cases held : self.writerLock with
      | none => rfl
      | some holder =>
          cases holder with
          | worker =>
              have holds := guarded.holds held
              rw [stopped] at holds
              simp [WorkerStage.checks, WorkerStage.writes, WorkerStage.delivered] at holds
          | closer =>
              have closing := guarded.closing.mpr held
              rw [waiting] at closing
              cases closing
    change (ite (self.closer = .waiting ∧ self.writerLock = none) _ none).isSome = true
    rw [if_pos ⟨waiting, free⟩]
    rfl
  · intro begun more later continues
    have closed : self.closes = 1 := by
      rw [once] at begun ⊢
      cases closer : self.closer <;> rw [closer] at begun <;> first | rfl | cases begun
    obtain ⟨after, still, same⟩ := guarded.closed_exec closed continues
    exact ⟨still, after.silent (after.once.symm.trans still), same⟩

/-- The grace of the worker's close runs out during a write, which the session's closer
waits for; a second item is never written. -/
def blockedSteps : List Step :=
  [.worker (.offer .stdout ⟨.bytes [0x61, 0x62], 2⟩ true none),
    .worker (.offer .stderr ⟨.bytes [0x63], 1⟩ true none),
    .worker .nextItem, .acquire, .worker .checkAbandoned, .worker .beginWrite,
    .worker .beginClose, .worker (.finishClose true), .takeSession, .startCloser true,
    .worker (.endWrite .returned), .release, .beginClose]

theorem session_closes_alone_blocked : ∃ self,
    (sessionSystem 4).exec (sessionSystem 4).initial blockedSteps = some self ∧
      self.closer = .closing ∧ self.worker.ledger.begun.length = 1 ∧
      ∀ more later, (sessionSystem 4).exec self more = some later →
        later.closes = 1 ∧ later.worker.stage.writes = false ∧
          later.worker.ledger.begun = self.worker.ledger.begun :=
  ⟨_, rfl, rfl, rfl, (@session_closes_alone 4 _ blockedSteps rfl).2.2.2.2 (by decide)⟩

end SinkBracket

end Cuprum.Delivery
