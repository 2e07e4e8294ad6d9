import Cuprum.Delivery.Worker
import Mathlib.Data.List.Sublists

namespace Cuprum.Delivery

open Transition

namespace DeliveryWorker

/-- The item taken from the queue whose sink call has not begun. -/
def pending (self : DeliveryWorker) : List DeliveryItem :=
  match self.stage with
  | .checking item | .cleared item => [item]
  | _ => []

def totalBytes : List DeliveryItem → Nat
  | [] => 0
  | item :: items => item.bytes + totalBytes items

theorem totalBytes_append (first second : List DeliveryItem) :
    totalBytes (first ++ second) = totalBytes first + totalBytes second := by
  induction first with
  | nil => exact (Nat.zero_add _).symm
  | cons item first induction =>
      rw [List.cons_append, totalBytes, totalBytes, induction, Nat.add_assoc]

theorem totalBytes_perm {first second : List DeliveryItem} (perm : first.Perm second) :
    totalBytes first = totalBytes second := by
  induction perm with
  | nil => rfl
  | cons item _ induction => rw [totalBytes, totalBytes, induction]
  | swap item other items =>
      simp only [totalBytes]
      omega
  | trans _ _ left right => exact left.trans right

/-- The queue's count is exact and bounded, offers are numbered as they come, and
what is begun, taken or queued stands in the order it was accepted. -/
structure QueueInvariant (maxQueuedBytes : Nat) (worker : DeliveryWorker) : Prop where
  limit : worker.maxQueuedBytes = maxQueuedBytes
  tracked : worker.queuedBytes = totalBytes worker.queue
  bounded : worker.queuedBytes ≤ maxQueuedBytes
  numbered : worker.ledger.offered.map (fun offer => offer.1.ticket) =
    List.range worker.ledger.offered.length
  accepted : worker.ledger.accepted.Sublist (worker.ledger.offered.map Prod.fst)
  ordered : (worker.ledger.begun ++ worker.pending ++ worker.queue).Sublist
    worker.ledger.accepted

namespace QueueInvariant

variable {maxQueuedBytes : Nat} {self : DeliveryWorker}

theorem initially (maxQueuedBytes : Nat) :
    QueueInvariant maxQueuedBytes (.initial maxQueuedBytes) :=
  ⟨rfl, rfl, Nat.zero_le _, rfl, .slnil, .slnil⟩

/-- A step that leaves the queue, the offers and the order alone. -/
theorem of_same {after : DeliveryWorker} (holds : QueueInvariant maxQueuedBytes self)
    (limit : after.maxQueuedBytes = self.maxQueuedBytes)
    (queue : after.queue = self.queue) (queued : after.queuedBytes = self.queuedBytes)
    (offered : after.ledger.offered = self.ledger.offered)
    (accepted : after.ledger.accepted = self.ledger.accepted)
    (taken : (after.ledger.begun ++ after.pending).Sublist
      (self.ledger.begun ++ self.pending)) :
    QueueInvariant maxQueuedBytes after := by
  refine ⟨limit.trans holds.limit, ?_, ?_, ?_, ?_, ?_⟩
  · rw [queued, queue]
    exact holds.tracked
  · rw [queued]
    exact holds.bounded
  · rw [offered]
    exact holds.numbered
  · rw [accepted, offered]
    exact holds.accepted
  · rw [accepted, queue]
    exact (taken.append_right _).trans holds.ordered

theorem discardQueued (holds : QueueInvariant maxQueuedBytes self) :
    QueueInvariant maxQueuedBytes self.discardQueued := by
  rw [discardQueued_eq]
  refine ⟨holds.limit, rfl, Nat.zero_le _, holds.numbered, holds.accepted, ?_⟩
  have shorter := List.sublist_append_left (self.ledger.begun ++ self.pending) self.queue
  simpa [pending] using shorter.trans holds.ordered

theorem offer (holds : QueueInvariant maxQueuedBytes self) (stream : EchoStream)
    (payload : DeliveryPayload) (flush : Bool) (diagnostics : Option Nat) :
    QueueInvariant maxQueuedBytes (self.offer stream payload flush diagnostics) := by
  unfold DeliveryWorker.offer
  split
  next => exact holds
  next =>
    have numbered : ∀ offer : DeliveryItem × Nat,
        offer.1.ticket = self.ledger.offered.length →
          (self.ledger.offered ++ [offer]).map (fun offer => offer.1.ticket) =
            List.range (self.ledger.offered ++ [offer]).length := by
      intro offer ticket
      rw [List.map_append, holds.numbered, List.length_append, List.length_singleton,
        List.range_succ, List.map_singleton, ticket]
    simp only [enqueue]
    split
    next =>
      refine ⟨holds.limit, holds.tracked, holds.bounded, numbered _ rfl, ?_,
        holds.ordered⟩
      · simpa [addUndelivered] using
          holds.accepted.trans (List.sublist_append_left _ _)
    next =>
      split
      next =>
        refine ⟨holds.limit, holds.tracked, holds.bounded, numbered _ rfl, ?_,
          holds.ordered⟩
        · simpa using holds.accepted.trans (List.sublist_append_left _ _)
      next fits =>
        refine ⟨holds.limit, ?_, ?_, numbered _ rfl, ?_, ?_⟩
        · rw [totalBytes_append, ← holds.tracked]
          rfl
        · have limit := holds.limit
          have room := Nat.le_of_not_lt fits
          rwa [limit] at room
        · rw [List.map_append]
          exact holds.accepted.append (.refl _)
        · rw [pending, ← List.append_assoc]
          exact holds.ordered.append (.refl _)

theorem nextItem (holds : QueueInvariant maxQueuedBytes self)
    (stage : self.stage = .fetching) :
    QueueInvariant maxQueuedBytes self.nextItem := by
  have ordered := holds.ordered
  have tracked := holds.tracked
  simp only [pending, stage] at ordered
  unfold DeliveryWorker.nextItem
  split
  next => exact ⟨holds.limit, tracked, holds.bounded, holds.numbered, holds.accepted, ordered⟩
  next item queue shape =>
    rw [shape] at ordered tracked
    split
    next =>
      refine ⟨holds.limit, ?_, holds.bounded, holds.numbered, holds.accepted, ?_⟩
      · rw [shape]
        exact tracked
      · rw [shape]
        exact ordered
    next =>
      refine ⟨holds.limit, ?_, ?_, holds.numbered, holds.accepted, ?_⟩
      · rw [tracked, totalBytes, Nat.add_sub_cancel_left]
      · exact (Nat.sub_le _ _).trans holds.bounded
      · simpa [pending] using ordered

theorem checkAbandoned (holds : QueueInvariant maxQueuedBytes self)
    {item : DeliveryItem} (stage : self.stage = .checking item) :
    QueueInvariant maxQueuedBytes (self.checkAbandoned item) := by
  unfold DeliveryWorker.checkAbandoned
  split
  all_goals
    refine holds.of_same rfl rfl rfl rfl rfl ?_
    simp [pending, stage]

theorem beginWrite (holds : QueueInvariant maxQueuedBytes self)
    {item : DeliveryItem} (stage : self.stage = .cleared item) :
    QueueInvariant maxQueuedBytes (self.beginWrite item) := by
  refine holds.of_same rfl rfl rfl rfl rfl ?_
  simp [pending, stage, DeliveryWorker.beginWrite]

theorem endWrite (holds : QueueInvariant maxQueuedBytes self)
    {item : DeliveryItem} (outcome : SinkOutcome) :
    QueueInvariant maxQueuedBytes (self.endWrite item outcome) := by
  refine holds.of_same rfl rfl rfl rfl rfl ?_
  cases outcome <;> simp [pending, DeliveryWorker.endWrite]

theorem settleReturned (holds : QueueInvariant maxQueuedBytes self)
    {item : DeliveryItem} :
    QueueInvariant maxQueuedBytes (self.settleReturned item) := by
  unfold DeliveryWorker.settleReturned
  split
  all_goals
    refine holds.of_same rfl rfl rfl rfl rfl ?_
    simp [pending]

theorem settleRaised (holds : QueueInvariant maxQueuedBytes self)
    {item : DeliveryItem} :
    QueueInvariant maxQueuedBytes (self.settleRaised item) := by
  unfold DeliveryWorker.settleRaised
  split
  next =>
    refine holds.of_same rfl rfl rfl rfl rfl ?_
    simp [pending]
  next =>
    apply discardQueued
    refine holds.of_same rfl rfl rfl rfl rfl ?_
    simp [pending]

theorem finishClose (holds : QueueInvariant maxQueuedBytes self) (alive : Bool) :
    QueueInvariant maxQueuedBytes (self.finishClose alive) := by
  have emptied := holds.discardQueued
  rw [discardQueued_eq] at emptied
  rw [finishClose_eq]
  exact ⟨emptied.limit, rfl, Nat.zero_le _, emptied.numbered, emptied.accepted,
    emptied.ordered⟩

theorem preserved (holds : QueueInvariant maxQueuedBytes self)
    {after : DeliveryWorker} (moves : self.Moves after) :
    QueueInvariant maxQueuedBytes after := by
  cases moves with
  | offer stream payload flush diagnostics => exact holds.offer stream payload flush _
  | nextItem stage => exact holds.nextItem stage
  | checkAbandoned item stage => exact holds.checkAbandoned stage
  | beginWrite item stage => exact holds.beginWrite stage
  | endWrite item outcome stage => exact holds.endWrite outcome
  | settleReturned item stage => exact holds.settleReturned
  | settleRaised item stage => exact holds.settleRaised
  | beginClose opened => exact holds.of_same rfl rfl rfl rfl rfl (.refl _)
  | finishClose alive closing unfinished lives => exact holds.finishClose alive

theorem of_reachable {worker : DeliveryWorker}
    (reachable : (deliverySystem maxQueuedBytes).Reachable worker) :
    QueueInvariant maxQueuedBytes worker :=
  reachable.invariant (initially maxQueuedBytes)
    fun holds moved => holds.preserved (moves_of_next moved)

theorem offered_nodup (holds : QueueInvariant maxQueuedBytes self) :
    (self.ledger.offered.map Prod.fst).Nodup := by
  have tickets : (self.ledger.offered.map Prod.fst).map DeliveryItem.ticket =
      List.range self.ledger.offered.length := by
    rw [List.map_map]
    exact holds.numbered
  exact List.Nodup.of_map _ (tickets ▸ List.nodup_range)

end QueueInvariant

/-- The queue's byte count is exact and within its bound, and sink calls begin in
the order their items were accepted, none of them twice. -/
theorem queue_bounded_and_ordered {maxQueuedBytes : Nat} {worker : DeliveryWorker}
    (reachable : (deliverySystem maxQueuedBytes).Reachable worker) :
    worker.queuedBytes = totalBytes worker.queue ∧
      worker.queuedBytes ≤ maxQueuedBytes ∧
      worker.ledger.begun.Sublist worker.ledger.accepted ∧
      worker.ledger.begun.Nodup := by
  have holds := QueueInvariant.of_reachable reachable
  have ordered : worker.ledger.begun.Sublist worker.ledger.accepted := by
    have front := List.sublist_append_left worker.ledger.begun
      (worker.pending ++ worker.queue)
    rw [← List.append_assoc] at front
    exact front.trans holds.ordered
  refine ⟨holds.tracked, holds.bounded, ordered, ?_⟩
  exact holds.offered_nodup.sublist (ordered.trans holds.accepted)

def midWriteSteps : List Step :=
  [.offer .stdout ⟨.bytes [0x61, 0x62], 2⟩ true none,
    .offer .stderr ⟨.bytes [0x63], 1⟩ true none,
    .nextItem, .checkAbandoned, .beginWrite]

def midWriteWorker : DeliveryWorker :=
  ((deliverySystem 4).exec (.initial 4) midWriteSteps).getD (.initial 4)

theorem queue_bounded_and_ordered_mid_write :
    midWriteWorker.queuedBytes = totalBytes midWriteWorker.queue ∧
      midWriteWorker.queuedBytes ≤ 4 ∧
      midWriteWorker.ledger.begun.Sublist midWriteWorker.ledger.accepted ∧
      midWriteWorker.ledger.begun.Nodup :=
  queue_bounded_and_ordered ⟨midWriteSteps, rfl⟩

end DeliveryWorker

end Cuprum.Delivery
