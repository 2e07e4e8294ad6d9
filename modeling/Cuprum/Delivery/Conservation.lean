import Cuprum.Delivery.Queue
import Mathlib.Data.List.Perm.Basic

namespace Cuprum.Delivery

open Transition

/-- Where an offered item is accounted for. -/
inductive Account
  | refused
  | written
  | failed
  | undelivered
  deriving DecidableEq

def refusedItems (offered : List (DeliveryItem × Nat)) : List DeliveryItem :=
  (offered.filter fun offer => offer.2 ≠ 0).map Prod.fst

theorem refusedItems_append (offered : List (DeliveryItem × Nat)) (item : DeliveryItem)
    (answer : Nat) :
    refusedItems (offered ++ [(item, answer)]) =
      refusedItems offered ++ if answer = 0 then [] else [item] := by
  simp only [refusedItems, List.filter_append, List.map_append]
  by_cases zero : answer = 0 <;> simp [zero]

namespace Ledger

variable (ledger : Ledger)

def items : Account → List DeliveryItem
  | .refused => refusedItems ledger.offered
  | .written => ledger.written
  | .failed => ledger.failed
  | .undelivered => ledger.undelivered

def accounted : List DeliveryItem :=
  ledger.items .refused ++ ledger.items .written ++ ledger.items .failed ++
    ledger.items .undelivered

end Ledger

abbrev Target := EchoStream × Option Nat

/-- The bytes reported as undelivered for one stream of one collector. -/
def reportedBytes (target : Target) : List UndeliveredBytes → Nat
  | [] => 0
  | entry :: entries =>
      (if (entry.stream, entry.diagnostics) = target then entry.byteCount else 0) +
        reportedBytes target entries

def bytesFor (target : Target) : List DeliveryItem → Nat
  | [] => 0
  | item :: items =>
      (if (item.stream, item.diagnostics) = target then item.bytes else 0) +
        bytesFor target items

theorem reportedBytes_addToTarget (item : DeliveryItem)
    (entries : List UndeliveredBytes) (target : Target) :
    reportedBytes target (addToTarget item entries) =
      reportedBytes target entries +
        if (item.stream, item.diagnostics) = target then item.bytes else 0 := by
  induction entries with
  | nil => exact Nat.add_comm _ 0
  | cons entry entries induction =>
      rw [addToTarget]
      split
      next same =>
        rw [reportedBytes, reportedBytes, same.1, same.2]
        by_cases aimed : (item.stream, item.diagnostics) = target
        · simp only [if_pos aimed]
          omega
        · simp only [if_neg aimed]
          omega
      next =>
        rw [reportedBytes, reportedBytes, induction, Nat.add_assoc]

theorem reportedBytes_accumulate (entries : List UndeliveredBytes) (item : DeliveryItem)
    (target : Target) :
    reportedBytes target (accumulate entries item) =
      reportedBytes target entries +
        if (item.stream, item.diagnostics) = target then item.bytes else 0 := by
  unfold accumulate
  split
  next empty => simp [empty]
  next => exact reportedBytes_addToTarget item entries target

/-- The grouped counts are the bytes of the items they were made from. -/
theorem reportedBytes_foldl (items : List DeliveryItem) (entries : List UndeliveredBytes)
    (target : Target) :
    reportedBytes target (items.foldl accumulate entries) =
      reportedBytes target entries + bytesFor target items := by
  induction items generalizing entries with
  | nil => rfl
  | cons item items induction =>
      rw [List.foldl_cons, induction, reportedBytes_accumulate, bytesFor, Nat.add_assoc]

namespace WorkerStage

def item : WorkerStage → List DeliveryItem
  | checking item | cleared item | writing item | returned item | raised item => [item]
  | fetching | stopped => []

def started : WorkerStage → List DeliveryItem
  | writing item | returned item | raised item => [item]
  | _ => []

theorem item_of_started {stage : WorkerStage} {other : DeliveryItem}
    (begun : other ∈ stage.started) : other ∈ stage.item := by
  cases stage <;> first | exact begun | cases begun

end WorkerStage

namespace DeliveryWorker

/-- Every offer is in one account, in the worker's hands or in the queue; what the
worker records agrees with the ledger; and only a close abandons an item. -/
structure Conserves (worker : DeliveryWorker) : Prop where
  balanced : (worker.ledger.offered.map Prod.fst).Perm
    (worker.ledger.accounted ++ worker.activeItem.toList ++ worker.queue)
  answered : ∀ offer ∈ worker.ledger.offered, offer.2 ≠ 0 → offer.2 = offer.1.bytes
  failures : worker.failures = worker.ledger.failed.map DeliveryItem.failure
  counted : worker.undeliveredByTarget =
    worker.ledger.undelivered.foldl accumulate []
  written : ∀ item ∈ worker.ledger.written,
    (item, .returned) ∈ worker.ledger.ended
  failed : ∀ item ∈ worker.ledger.failed, (item, .raised) ∈ worker.ledger.ended
  returned : worker.abandoned = false → ∀ item, worker.stage = .returned item →
    (item, .returned) ∈ worker.ledger.ended
  raised : ∀ item, worker.stage = .raised item →
    (item, .raised) ∈ worker.ledger.ended
  active : worker.activeItem.toList =
    if worker.abandoned then [] else worker.stage.item
  begun : worker.abandoned = false → worker.ledger.begun.Perm
    (worker.ledger.written ++ worker.ledger.failed ++ worker.stage.started)
  unfinished : worker.closeResult = none → worker.abandoned = false

namespace Conserves

variable {self : DeliveryWorker}

theorem initially (maxQueuedBytes : Nat) : (initial maxQueuedBytes).Conserves := by
  constructor <;> simp [initial, Ledger.accounted, Ledger.items, refusedItems,
    WorkerStage.item, WorkerStage.started]

theorem beginClose (holds : self.Conserves) : self.beginClose.Conserves :=
  ⟨holds.balanced, holds.answered, holds.failures, holds.counted, holds.written,
    holds.failed, holds.returned, holds.raised, holds.active, holds.begun,
    holds.unfinished⟩

theorem counts (holds : self.Conserves) (item : DeliveryItem) :
    (self.ledger.offered.map Prod.fst).count item =
      (refusedItems self.ledger.offered).count item + self.ledger.written.count item +
        self.ledger.failed.count item + self.ledger.undelivered.count item +
        self.activeItem.toList.count item + self.queue.count item := by
  have balanced := List.perm_iff_count.mp holds.balanced item
  simpa only [Ledger.accounted, List.count_append, Ledger.items] using balanced

theorem balanced_of_counts {worker : DeliveryWorker}
    (counts : ∀ item, (worker.ledger.offered.map Prod.fst).count item =
      (refusedItems worker.ledger.offered).count item + worker.ledger.written.count item +
        worker.ledger.failed.count item + worker.ledger.undelivered.count item +
        worker.activeItem.toList.count item + worker.queue.count item) :
    (worker.ledger.offered.map Prod.fst).Perm
      (worker.ledger.accounted ++ worker.activeItem.toList ++ worker.queue) := by
  apply List.perm_iff_count.mpr
  intro item
  simpa only [Ledger.accounted, List.count_append, Ledger.items] using counts item

theorem offer (holds : self.Conserves) (room : self.queuedBytes ≤ self.maxQueuedBytes)
    (stream : EchoStream)
    (payload : DeliveryPayload) (flush : Bool) (diagnostics : Option Nat) :
    (self.offer stream payload flush diagnostics).Conserves := by
  unfold DeliveryWorker.offer
  split
  next => exact holds
  next =>
    generalize (⟨self.ledger.offered.length, stream, payload, flush, diagnostics⟩ :
      DeliveryItem) = item
    have answered : ∀ answer : Nat, (answer ≠ 0 → answer = item.bytes) →
        ∀ offer ∈ self.ledger.offered ++ [(item, answer)],
          offer.2 ≠ 0 → offer.2 = offer.1.bytes := by
      intro answer honest offer member
      rcases List.mem_append.mp member with earlier | last
      · exact holds.answered offer earlier
      · cases List.mem_singleton.mp last
        exact honest
    simp only [enqueue]
    split
    next =>
      refine ⟨balanced_of_counts fun other => ?_, answered 0 fun wrong => absurd rfl wrong, holds.failures, ?_,
        holds.written, holds.failed, holds.returned, holds.raised, holds.active,
        holds.begun, holds.unfinished⟩
      · have counts := holds.counts other
        simp only [addUndelivered, refusedItems_append, List.map_append,
          List.count_append, List.map_singleton, if_pos, List.count_nil] at counts ⊢
        omega
      · rw [addUndelivered, List.foldl_append, ← holds.counted]
        rfl
    next =>
      split
      next full =>
        refine ⟨balanced_of_counts fun other => ?_, answered _ fun _ => rfl,
          holds.failures, holds.counted, holds.written, holds.failed, holds.returned,
          holds.raised, holds.active, holds.begun, holds.unfinished⟩
        have counts := holds.counts other
        have positive : item.bytes ≠ 0 := by omega
        simp only [refusedItems_append, List.map_append, List.count_append,
          List.map_singleton, if_neg positive] at counts ⊢
        omega
      next =>
        refine ⟨balanced_of_counts fun other => ?_, answered 0 fun wrong => absurd rfl wrong, holds.failures,
          holds.counted, holds.written, holds.failed, holds.returned, holds.raised,
          holds.active, holds.begun, holds.unfinished⟩
        have counts := holds.counts other
        simp only [refusedItems_append, List.map_append, List.count_append,
          List.map_singleton, if_pos, List.count_nil] at counts ⊢
        omega

theorem stop (holds : self.Conserves) (idle : self.activeItem.toList = [])
    (started : self.stage.started = []) :
    { self with stage := .stopped }.Conserves := by
  refine ⟨holds.balanced, holds.answered, holds.failures, holds.counted, holds.written,
    holds.failed, nofun, nofun, ?_, ?_, holds.unfinished⟩
  · rw [idle]
    split <;> rfl
  · intro kept
    have begun := holds.begun kept
    rwa [started] at begun

theorem nextItem (holds : self.Conserves) (stage : self.stage = .fetching) :
    self.nextItem.Conserves := by
  have idle : self.activeItem.toList = [] := by
    rw [holds.active, stage]
    split <;> rfl
  have started : self.stage.started = [] := by
    rw [stage]
    rfl
  unfold DeliveryWorker.nextItem
  split
  next => exact holds.stop idle started
  next item queue shape =>
    split
    next => exact holds.stop idle started
    next kept =>
      refine ⟨balanced_of_counts fun other => ?_, holds.answered, holds.failures,
        holds.counted, holds.written, holds.failed, nofun, nofun, ?_, ?_,
        holds.unfinished⟩
      · have counts := holds.counts other
        rw [idle, shape, ← List.singleton_append] at counts
        simp only [Option.toList_some, List.count_nil, List.count_append] at counts ⊢
        omega
      · rw [if_neg kept]
        rfl
      · intro kept
        have begun := holds.begun kept
        rwa [started] at begun

theorem checkAbandoned (holds : self.Conserves) {item : DeliveryItem}
    (stage : self.stage = .checking item) : (self.checkAbandoned item).Conserves := by
  have active := holds.active
  have begun := holds.begun
  rw [stage] at active begun
  unfold DeliveryWorker.checkAbandoned
  split
  next abandoned =>
    rw [if_pos abandoned] at active
    refine ⟨holds.balanced, holds.answered, holds.failures, holds.counted,
      holds.written, holds.failed, ?_, nofun, ?_, ?_, holds.unfinished⟩
    · exact fun kept => absurd (abandoned.symm.trans kept) (by decide)
    · rw [active, if_pos abandoned]
    · exact fun kept => absurd (abandoned.symm.trans kept) (by decide)
  next =>
    exact ⟨holds.balanced, holds.answered, holds.failures, holds.counted,
      holds.written, holds.failed, nofun, nofun, active, begun, holds.unfinished⟩

theorem beginWrite (holds : self.Conserves) {item : DeliveryItem}
    (stage : self.stage = .cleared item) : (self.beginWrite item).Conserves := by
  have active := holds.active
  rw [stage] at active
  refine ⟨holds.balanced, holds.answered, holds.failures, holds.counted, holds.written,
    holds.failed, nofun, nofun, active, ?_, holds.unfinished⟩
  intro kept
  have begun := holds.begun kept
  rw [stage] at begun
  simpa [DeliveryWorker.beginWrite, WorkerStage.started] using begun.append_right [item]

theorem endWrite (holds : self.Conserves) {item : DeliveryItem}
    (stage : self.stage = .writing item) (outcome : SinkOutcome) :
    (self.endWrite item outcome).Conserves := by
  have active := holds.active
  have begun := holds.begun
  rw [stage] at active begun
  have earlier : ∀ ended ∈ self.ledger.ended,
      ended ∈ self.ledger.ended ++ [(item, outcome)] :=
    fun ended member => List.mem_append_left _ member
  have last : (item, outcome) ∈ self.ledger.ended ++ [(item, outcome)] :=
    List.mem_append_right _ List.mem_cons_self
  refine ⟨holds.balanced, holds.answered, holds.failures, holds.counted,
    fun other member => earlier _ (holds.written other member),
    fun other member => earlier _ (holds.failed other member), ?_, ?_, ?_, ?_,
    holds.unfinished⟩
  · intro _ other same
    cases outcome with
    | returned =>
        cases same
        exact last
    | raised => cases same
  · intro other same
    cases outcome with
    | returned => cases same
    | raised =>
        cases same
        exact last
  · cases outcome <;> exact active
  · cases outcome <;> exact begun

theorem settleReturned (holds : self.Conserves) {item : DeliveryItem}
    (stage : self.stage = .returned item) : (self.settleReturned item).Conserves := by
  have active := holds.active
  rw [stage] at active
  unfold DeliveryWorker.settleReturned
  split
  next abandoned =>
    rw [if_pos abandoned] at active
    have idle : self.activeItem = none := by simpa using active
    refine ⟨?_, holds.answered, holds.failures, holds.counted, holds.written,
      holds.failed, nofun, nofun, ?_, ?_, holds.unfinished⟩
    · have balanced := holds.balanced
      rwa [idle] at balanced
    · exact (ite_self _).symm
    · exact fun kept => absurd (abandoned.symm.trans kept) (by decide)
  next kept =>
    rw [if_neg kept] at active
    have kept : self.abandoned = false := by simpa using kept
    refine ⟨balanced_of_counts fun other => ?_, holds.answered, holds.failures,
      holds.counted, ?_, holds.failed, nofun, nofun, ?_, ?_, holds.unfinished⟩
    · have counts := holds.counts other
      rw [active] at counts
      simp only [WorkerStage.item, Option.toList_none, List.count_append,
        List.count_nil] at counts ⊢
      omega
    · intro other member
      rcases List.mem_append.mp member with earlier | last
      · exact holds.written other earlier
      · cases List.mem_singleton.mp last
        exact holds.returned kept item stage
    · exact (ite_self _).symm
    · intro _
      have begun := holds.begun kept
      rw [stage] at begun
      refine begun.trans (List.perm_iff_count.mpr fun other => ?_)
      simp only [WorkerStage.started, List.count_append, List.count_nil]
      omega

theorem settleRaised (holds : self.Conserves) {item : DeliveryItem}
    (stage : self.stage = .raised item) : (self.settleRaised item).Conserves := by
  have active := holds.active
  rw [stage] at active
  unfold DeliveryWorker.settleRaised
  split
  next abandoned =>
    rw [if_pos abandoned] at active
    refine ⟨holds.balanced, holds.answered, holds.failures, holds.counted,
      holds.written, holds.failed, nofun, nofun, ?_, ?_, holds.unfinished⟩
    · rw [active, if_pos abandoned]
    · exact fun kept => absurd (abandoned.symm.trans kept) (by decide)
  next kept =>
    rw [if_neg kept] at active
    have kept : self.abandoned = false := by simpa using kept
    rw [discardQueued_eq]
    refine ⟨balanced_of_counts fun other => ?_, holds.answered, ?_, ?_, holds.written,
      ?_, nofun, nofun, ?_, ?_, holds.unfinished⟩
    · have counts := holds.counts other
      rw [active] at counts
      simp only [WorkerStage.item, Option.toList_none, List.count_append,
        List.count_nil] at counts ⊢
      omega
    · rw [holds.failures, List.map_append]
      rfl
    · rw [holds.counted, List.foldl_append]
    · intro other member
      rcases List.mem_append.mp member with earlier | last
      · exact holds.failed other earlier
      · cases List.mem_singleton.mp last
        exact holds.raised item stage
    · exact (ite_self _).symm
    · intro _
      have begun := holds.begun kept
      rw [stage] at begun
      simpa [WorkerStage.started] using begun

theorem finishClose (holds : self.Conserves) (alive : Bool) :
    (self.finishClose alive).Conserves := by
  have kept : (alive || self.activeItem.isSome || self.abandoned) = false →
      self.activeItem = none ∧ self.abandoned = false := by
    simp only [Bool.or_eq_false_iff, Option.isSome_eq_false_iff, Option.isNone_iff_eq_none]
    exact fun none => ⟨none.1.2, none.2⟩
  rw [finishClose_eq]
  refine ⟨balanced_of_counts fun other => ?_, holds.answered, holds.failures, ?_,
    holds.written, holds.failed, fun same => holds.returned (kept same).2, holds.raised,
    ?_, fun same => holds.begun (kept same).2, nofun⟩
  · have counts := holds.counts other
    simp only [Option.toList_none, List.count_append, List.count_nil] at counts ⊢
    omega
  · rw [holds.counted, List.foldl_append]
  · cases same : alive || self.activeItem.isSome || self.abandoned with
    | true => exact (if_pos rfl).symm
    | false =>
        obtain ⟨idle, running⟩ := kept same
        have active := holds.active
        rw [idle, running] at active
        exact active.trans (if_neg (by simp)).symm

theorem preserved (holds : self.Conserves)
    (room : self.queuedBytes ≤ self.maxQueuedBytes) {after : DeliveryWorker}
    (moves : self.Moves after) : after.Conserves := by
  cases moves with
  | offer stream payload flush diagnostics => exact holds.offer room stream payload _ _
  | nextItem stage => exact holds.nextItem stage
  | checkAbandoned item stage => exact holds.checkAbandoned stage
  | beginWrite item stage => exact holds.beginWrite stage
  | endWrite item outcome stage => exact holds.endWrite stage outcome
  | settleReturned item stage => exact holds.settleReturned stage
  | settleRaised item stage => exact holds.settleRaised stage
  | beginClose opened => exact holds.beginClose
  | finishClose alive closing unfinished lives => exact holds.finishClose alive

theorem of_reachable {maxQueuedBytes : Nat} {worker : DeliveryWorker}
    (reachable : (deliverySystem maxQueuedBytes).Reachable worker) :
    worker.Conserves := by
  have both : QueueInvariant maxQueuedBytes worker ∧ worker.Conserves := by
    apply reachable.invariant
    · exact ⟨.initially maxQueuedBytes, initially maxQueuedBytes⟩
    · rintro state step after ⟨queued, conserves⟩ moved
      have moves := moves_of_next moved
      refine ⟨queued.preserved moves, conserves.preserved ?_ moves⟩
      rw [queued.limit]
      exact queued.bounded
  exact both.2

end Conserves

/-- Every item offered is in exactly one account; the refused ones were answered
with their bytes and no other; and what the close reports is what the accounts
say. -/
structure Accounted (worker : DeliveryWorker) (result : DeliveryCloseResult) :
    Prop where
  once : ∀ offer ∈ worker.ledger.offered,
    ∃! account, offer.1 ∈ worker.ledger.items account
  conserved : totalBytes (worker.ledger.offered.map Prod.fst) =
    totalBytes worker.ledger.accounted
  answered : ∀ offer ∈ worker.ledger.offered, offer.2 =
    if offer.1 ∈ worker.ledger.items .refused then offer.1.bytes else 0
  written : ∀ item ∈ worker.ledger.items .written,
    (item, .returned) ∈ worker.ledger.ended
  failed : ∀ item ∈ worker.ledger.items .failed,
    (item, .raised) ∈ worker.ledger.ended
  failures : result.failures =
    (worker.ledger.items .failed).map DeliveryItem.failure
  undelivered : ∀ target, reportedBytes target result.undeliveredBytes =
    bytesFor target (worker.ledger.items .undelivered)

/-- With nothing queued and nothing in hand, the accounts hold every offer once. -/
theorem Conserves.account_unique {self : DeliveryWorker} (holds : self.Conserves)
    (distinct : (self.ledger.offered.map Prod.fst).Nodup)
    (idle : self.activeItem = none) (drained : self.queue = [])
    {item : DeliveryItem} (offered : item ∈ self.ledger.offered.map Prod.fst) :
    ∃! account, item ∈ self.ledger.items account := by
  have counts := holds.counts item
  rw [List.count_eq_one_of_mem distinct offered, idle, drained] at counts
  simp only [Option.toList_none, List.count_nil, Nat.add_zero] at counts
  have positive : ∀ account, item ∈ self.ledger.items account →
      0 < (self.ledger.items account).count item :=
    fun account => List.count_pos_iff.mpr
  have somewhere : ∃ account, item ∈ self.ledger.items account := by
    by_contra nowhere
    have absent : ∀ account, (self.ledger.items account).count item = 0 :=
      fun account => List.count_eq_zero.mpr fun member => nowhere ⟨account, member⟩
    have refused := absent .refused
    have written := absent .written
    have failed := absent .failed
    have undelivered := absent .undelivered
    simp only [Ledger.items] at refused written failed undelivered
    omega
  obtain ⟨account, member⟩ := somewhere
  refine ⟨account, member, fun other found => ?_⟩
  have first := positive account member
  have second := positive other found
  cases account <;> cases other <;>
    first
    | rfl
    | simp only [Ledger.items] at first second
      omega

theorem Conserves.answer_eq {self : DeliveryWorker} (holds : self.Conserves)
    (distinct : (self.ledger.offered.map Prod.fst).Nodup)
    {offer : DeliveryItem × Nat} (member : offer ∈ self.ledger.offered) :
    offer.2 = if offer.1 ∈ self.ledger.items .refused then offer.1.bytes else 0 := by
  split
  next refused =>
    obtain ⟨other, found, same⟩ := List.mem_map.mp refused
    obtain ⟨inside, answered⟩ := List.mem_filter.mp found
    obtain rfl := List.inj_on_of_nodup_map distinct inside member same
    exact holds.answered other inside (by simpa using answered)
  next accepted =>
    by_contra answered
    apply accepted
    apply List.mem_map_of_mem
    exact List.mem_filter.mpr ⟨member, by simpa using answered⟩

theorem Conserves.accounted {self : DeliveryWorker} (holds : self.Conserves)
    (distinct : (self.ledger.offered.map Prod.fst).Nodup) (alive : Bool) :
    (self.finishClose alive).Accounted
      ⟨(self.finishClose alive).failures,
        (self.finishClose alive).undeliveredByTarget⟩ := by
  have closed := holds.finishClose alive
  have idle : (self.finishClose alive).activeItem = none := by rw [finishClose_eq]
  have drained : (self.finishClose alive).queue = [] := by rw [finishClose_eq]
  have same : (self.finishClose alive).ledger.offered = self.ledger.offered := by
    rw [finishClose_eq]
  rw [← same] at distinct
  refine ⟨fun offer member => ?_, ?_, fun offer => closed.answer_eq distinct,
    closed.written, closed.failed, closed.failures, fun target => ?_⟩
  · exact closed.account_unique distinct idle drained (List.mem_map_of_mem member)
  · have balanced := closed.balanced
    rw [idle, drained, Option.toList_none, List.append_nil, List.append_nil] at balanced
    exact totalBytes_perm balanced
  · rw [closed.counted, reportedBytes_foldl]
    exact Nat.zero_add _

/-! After the close. -/

theorem offer_unchanged (self : DeliveryWorker) (stream : EchoStream)
    (payload : DeliveryPayload) (flush : Bool) (diagnostics : Option Nat) :
    (self.offer stream payload flush diagnostics).closeResult = self.closeResult ∧
      (self.offer stream payload flush diagnostics).abandoned = self.abandoned ∧
      (self.offer stream payload flush diagnostics).stage = self.stage ∧
      (self.offer stream payload flush diagnostics).ledger.begun =
        self.ledger.begun := by
  simp only [offer, enqueue, addUndelivered]
  split_ifs <;> exact ⟨rfl, rfl, rfl, rfl⟩

/-- A closed worker begins no sink call but that of the item in flight. -/
structure Closed (result : DeliveryCloseResult) (begun : List DeliveryItem)
    (inFlight : Option DeliveryItem) (worker : DeliveryWorker) : Prop where
  reported : worker.closeResult = some result
  finished : worker.abandoned = true ∨ worker.stage = .stopped
  cleared : ∀ item, worker.stage = .cleared item → inFlight = some item
  begun : ∀ item ∈ worker.ledger.begun, item ∈ begun ∨ inFlight = some item

theorem Closed.preserved {result : DeliveryCloseResult} {begun : List DeliveryItem}
    {inFlight : Option DeliveryItem} {self after : DeliveryWorker}
    (holds : Closed result begun inFlight self) (moves : self.Moves after) :
    Closed result begun inFlight after := by
  have abandons : self.stage ≠ .stopped → self.abandoned = true :=
    holds.finished.resolve_right
  cases moves with
  | offer stream payload flush diagnostics =>
      obtain ⟨reported, abandoned, stage, same⟩ :=
        self.offer_unchanged stream payload flush diagnostics
      constructor
      · rw [reported]
        exact holds.reported
      · rw [abandoned, stage]
        exact holds.finished
      · rw [stage]
        exact holds.cleared
      · rw [same]
        exact holds.begun
  | nextItem stage =>
      have abandoned := abandons (by simp [stage])
      unfold DeliveryWorker.nextItem
      split
      next => exact ⟨holds.reported, .inr rfl, nofun, holds.begun⟩
      next =>
        rw [if_pos abandoned]
        exact ⟨holds.reported, .inr rfl, nofun, holds.begun⟩
  | checkAbandoned item stage =>
      have abandoned := abandons (by simp [stage])
      rw [DeliveryWorker.checkAbandoned, if_pos abandoned]
      exact ⟨holds.reported, .inl abandoned, nofun, holds.begun⟩
  | beginWrite item stage =>
      have abandoned := abandons (by simp [stage])
      refine ⟨holds.reported, .inl abandoned, nofun, fun other member => ?_⟩
      rcases List.mem_append.mp member with earlier | last
      · exact holds.begun other earlier
      · cases List.mem_singleton.mp last
        exact .inr (holds.cleared item stage)
  | endWrite item outcome stage =>
      have abandoned := abandons (by simp [stage])
      refine ⟨holds.reported, .inl abandoned, ?_, holds.begun⟩
      cases outcome <;> exact nofun
  | settleReturned item stage =>
      have abandoned := abandons (by simp [stage])
      rw [DeliveryWorker.settleReturned, if_pos abandoned]
      exact ⟨holds.reported, .inl abandoned, nofun, holds.begun⟩
  | settleRaised item stage =>
      have abandoned := abandons (by simp [stage])
      rw [DeliveryWorker.settleRaised, if_pos abandoned]
      exact ⟨holds.reported, .inl abandoned, nofun, holds.begun⟩
  | beginClose opened =>
      exact ⟨holds.reported, holds.finished, holds.cleared, holds.begun⟩
  | finishClose alive closing unfinished lives =>
      rw [holds.reported] at unfinished
      cases unfinished

theorem Conserves.closed {self : DeliveryWorker} (holds : self.Conserves)
    (unfinished : self.closeResult = none) {alive : Bool}
    (lives : self.stage ≠ .stopped → alive = true) :
    Closed ⟨(self.finishClose alive).failures,
        (self.finishClose alive).undeliveredByTarget⟩
      self.ledger.begun self.activeItem (self.finishClose alive) := by
  rw [finishClose_eq]
  refine ⟨rfl, ?_, fun item stage => ?_, fun item member => .inl member⟩
  · by_cases stopped : self.stage = .stopped
    · exact .inr stopped
    · simp [lives stopped]
  · have active := holds.active
    have cleared : self.stage = .cleared item := stage
    rw [holds.unfinished unfinished, cleared] at active
    simpa [WorkerStage.item] using active

/-- An item both begun and lost in the close is the one in flight. -/
theorem Conserves.begun_undelivered {self : DeliveryWorker} (holds : self.Conserves)
    (distinct : (self.ledger.offered.map Prod.fst).Nodup)
    (unfinished : self.closeResult = none) {alive : Bool} {item : DeliveryItem}
    (lost : item ∈ (self.finishClose alive).ledger.undelivered)
    (begun : item ∈ self.ledger.begun) : self.activeItem = some item := by
  have kept := holds.unfinished unfinished
  rw [finishClose_eq] at lost
  have lost : 0 < self.ledger.undelivered.count item +
      self.activeItem.toList.count item + self.queue.count item := by
    have counted := List.count_pos_iff.mpr lost
    simp only [List.count_append] at counted
    omega
  have once := List.nodup_iff_count_le_one.mp distinct item
  have counts := holds.counts item
  have sorted := (holds.begun kept).mem_iff.mp begun
  simp only [List.mem_append] at sorted
  rcases sorted with (written | failed) | started
  · have counted := List.count_pos_iff.mpr written
    omega
  · have counted := List.count_pos_iff.mpr failed
    omega
  · have active := holds.active
    rw [if_neg (by simp [kept])] at active
    have inHand := WorkerStage.item_of_started started
    rw [← active] at inHand
    simpa using inHand

/-- Delivery conserves bytes.  When `close` returns, every item offered before is
in exactly one account; only the item in flight may be both begun and undelivered,
and no other sink call begins afterwards. -/
theorem delivery_conserves_bytes {maxQueuedBytes : Nat}
    {worker closed later : DeliveryWorker} {alive : Bool} {steps : List Step}
    (reachable : (deliverySystem maxQueuedBytes).Reachable worker)
    (returns : worker.next (.finishClose alive) = some closed)
    (runs : (deliverySystem maxQueuedBytes).exec closed steps = some later) :
    ∃ result, closed.closeResult = some result ∧ later.closeResult = some result ∧
      closed.Accounted result ∧
      (∀ item ∈ closed.ledger.items .undelivered, item ∈ later.ledger.begun →
        worker.activeItem = some item) ∧
      ∀ item ∈ later.ledger.begun,
        item ∈ closed.ledger.begun ∨ worker.activeItem = some item := by
  have holds := Conserves.of_reachable reachable
  have distinct := (QueueInvariant.of_reachable reachable).offered_nodup
  obtain ⟨⟨_, unfinished, lives⟩, equal⟩ := Option.ite_none_right_eq_some.mp returns
  cases equal
  have begunSame : (worker.finishClose alive).ledger.begun = worker.ledger.begun := by
    rw [finishClose_eq]
  have ends := (deliverySystem maxQueuedBytes).exec_invariant
    (fun held moved => Closed.preserved held (moves_of_next moved))
    (holds.closed unfinished lives) runs
  refine ⟨_, (holds.closed unfinished lives).reported, ends.reported,
    holds.accounted distinct alive, fun item lost begun => ?_, ?_⟩
  · rcases ends.begun item begun with before | inFlight
    · exact holds.begun_undelivered distinct unfinished lost before
    · exact inFlight
  · rw [begunSame]
    exact ends.begun

/-- The grace runs out during the second of three writes, which then returns. -/
def overrunSteps : List Step :=
  [.offer .stdout ⟨.bytes [0x61, 0x62], 2⟩ true none,
    .nextItem, .checkAbandoned, .beginWrite, .endWrite .returned, .settle,
    .offer .stderr ⟨.bytes [0x63], 1⟩ true (some 0),
    .offer .stdout ⟨.bytes [0x64, 0x65, 0x66], 3⟩ true none,
    .nextItem, .checkAbandoned, .beginWrite, .beginClose]

def overrunWorker : DeliveryWorker :=
  ((deliverySystem 4).exec (.initial 4) overrunSteps).getD (.initial 4)

def overrunClosed : DeliveryWorker := overrunWorker.finishClose true

def lateSteps : List Step := [.endWrite .returned, .settle]

def overrunLater : DeliveryWorker :=
  ((deliverySystem 4).exec overrunClosed lateSteps).getD overrunClosed

theorem delivery_conserves_bytes_overrun :
    ∃ result, overrunClosed.closeResult = some result ∧
      overrunLater.closeResult = some result ∧ overrunClosed.Accounted result ∧
      (∀ item ∈ overrunClosed.ledger.items .undelivered,
        item ∈ overrunLater.ledger.begun → overrunWorker.activeItem = some item) ∧
      ∀ item ∈ overrunLater.ledger.begun,
        item ∈ overrunClosed.ledger.begun ∨ overrunWorker.activeItem = some item :=
  @delivery_conserves_bytes 4 _ _ _ true lateSteps ⟨overrunSteps, rfl⟩ rfl rfl

end DeliveryWorker

end Cuprum.Delivery
