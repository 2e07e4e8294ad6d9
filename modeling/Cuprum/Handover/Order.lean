import Cuprum.Handover.Steps

namespace Cuprum.Handover

open Transition (System)

variable {α : Type}

/-- The bytes still to come once those that have arrived, where the downstream is there
to take them. -/
def Hop.Line (sent : List α) (hop : Hop α) : Prop :=
  match hop.phase with
  | .draining => hop.carried = [] ∧ hop.arrived ++ hop.unflushed ++ hop.unread = sent
  | .working =>
      hop.buffered = [] ∧ hop.arrived ++ hop.unflushed ++ hop.carried ++ hop.unread = sent
  | .drained =>
      hop.carried = [] ∧ hop.buffered = [] ∧
        hop.arrived ++ hop.unflushed ++ hop.unread = sent
  | .dispatching | .paused | .settled | .pumping | .relaying =>
      hop.carried = [] ∧ hop.arrived ++ hop.unflushed ++ hop.buffered ++ hop.unread = sent
  | .closing =>
      (hop.arrived ++ hop.unflushed).IsPrefix sent ∧
        (hop.failed = false → hop.arrived ++ hop.unflushed = sent)
  | .closed =>
      hop.unflushed = [] ∧ (hop.failed = false → hop.arrived = sent)

structure Hop.Ordered (sent : List α) (hop : Hop α) : Prop where
  arrived : hop.arrived.IsPrefix sent
  line : hop.downstreamClosed = false → hop.Line sent
  ended : hop.readerClosed = true → hop.unread = []

/-- The native worker writes to a pipe that the transport has nothing left for, and
reads from the file that the reader's descriptor named. -/
def Orderly (hop : Hop α) : Event α → Prop
  | .write count =>
      hop.downstreamClosed = true ∨ hop.carried.take count = [] ∨ hop.unflushed = []
  | .handOff named => hop.readerClosed = true → named = []
  | _ => True

namespace Hop

variable {hop after : Hop α} {sent : List α}

theorem transportWrite_closed (closed : hop.downstreamClosed = true) (data : List α)
    (accepted : Nat) : hop.transportWrite data accepted = hop := by
  rw [transportWrite, if_pos closed]

/-- What is written to the transport comes behind everything it was given before. -/
theorem transportWrite_line (isOpen : hop.downstreamClosed = false) (data : List α)
    (accepted : Nat) :
    (hop.transportWrite data accepted).arrived ++
        (hop.transportWrite data accepted).unflushed =
      hop.arrived ++ hop.unflushed ++ data := by
  unfold transportWrite
  rw [isOpen, if_neg Bool.false_ne_true]
  split
  · rename_i empty
    rw [empty, List.append_nil, List.append_assoc, List.take_append_drop]
  · exact (List.append_assoc _ _ _).symm

theorem transportWrite_arrived (closed : hop.downstreamClosed = true) (data : List α)
    (accepted : Nat) : (hop.transportWrite data accepted).arrived = hop.arrived := by
  rw [transportWrite_closed closed]

theorem transportWrite_frame (hop : Hop α) (data : List α) (accepted : Nat) :
    ∃ arrived unflushed, hop.transportWrite data accepted = { hop with arrived, unflushed } := by
  unfold transportWrite
  split
  · exact ⟨hop.arrived, hop.unflushed, rfl⟩
  · split
    · exact ⟨_, _, rfl⟩
    · exact ⟨hop.arrived, _, rfl⟩

/-- With the downstream gone, what has arrived is all there is to keep. -/
theorem Ordered.ofClosed (ordered : hop.Ordered sent) (closed : after.downstreamClosed = true)
    (same : after.arrived = hop.arrived)
    (ended : after.readerClosed = true → after.unread = []) : after.Ordered sent where
  arrived := same ▸ ordered.arrived
  line isOpen := by
    rw [closed] at isOpen
    cases isOpen
  ended := ended

theorem Line.isPrefix (line : hop.Line sent) (phase : hop.phase ≠ .closed) :
    (hop.arrived ++ hop.unflushed).IsPrefix sent := by
  cases stands : hop.phase with
  | draining =>
      simp only [Line, stands] at line
      exact ⟨hop.unread, line.2⟩
  | working =>
      simp only [Line, stands] at line
      refine ⟨hop.carried ++ hop.unread, ?_⟩
      rw [← List.append_assoc]
      exact line.2
  | drained =>
      simp only [Line, stands] at line
      exact ⟨hop.unread, line.2.2⟩
  | dispatching | paused | settled | pumping | relaying =>
      simp only [Line, stands] at line
      refine ⟨hop.buffered ++ hop.unread, ?_⟩
      rw [← List.append_assoc]
      exact line.2
  | closing =>
      simp only [Line, stands] at line
      exact line.1
  | closed => exact absurd stands phase

end Hop

section Step

variable {mark : Nat} {hop after : Hop α} {event : Event α} {sent : List α}

theorem Hop.Ordered.feed (ordered : hop.Ordered sent) (reads : hop.phase.reads = true)
    (reading : hop.readerClosed = false) (count : Nat) :
    Hop.Ordered sent { hop with
      buffered := hop.buffered ++ hop.unread.take count
      unread := hop.unread.drop count } where
  arrived := ordered.arrived
  line isOpen := by
    have line := ordered.line isOpen
    cases stands : hop.phase with
    | dispatching | paused | pumping | relaying =>
        simp only [Hop.Line, stands] at line ⊢
        refine ⟨line.1, ?_⟩
        rw [← line.2]
        simp only [List.append_assoc, List.take_append_drop]
    | closing =>
        simp only [Hop.Line, stands] at line ⊢
        exact line
    | settled | draining | drained | working | closed =>
        rw [stands] at reads
        cases reads
  ended ended := by
    rw [reading] at ended
    cases ended

/-- A step that leaves the bytes where they are. -/
theorem Hop.Ordered.stand (ordered : hop.Ordered sent) (phase : Phase)
    (line : hop.Line sent → Hop.Line sent { hop with phase }) :
    Hop.Ordered sent { hop with phase } :=
  ⟨ordered.arrived, fun isOpen => line (ordered.line isOpen), ordered.ended⟩

theorem Hop.Ordered.write (ordered : hop.Ordered sent) {data : List α}
    (isPrefix : hop.downstreamClosed = false →
      (hop.arrived ++ hop.unflushed ++ data).IsPrefix sent) (accepted : Nat) :
    (hop.transportWrite data accepted).arrived.IsPrefix sent := by
  cases closed : hop.downstreamClosed with
  | true =>
      rw [hop.transportWrite_arrived closed]
      exact ordered.arrived
  | false =>
      refine List.IsPrefix.trans ?_ (isPrefix closed)
      rw [← hop.transportWrite_line closed data accepted]
      exact List.prefix_append _ _

theorem Hop.Ordered.deliver (ordered : hop.Ordered sent) (phase : hop.phase = .settled)
    (accepted : Nat) :
    Hop.Ordered sent { hop.transportWrite hop.buffered accepted with phase := .draining } := by
  have arrived : (hop.transportWrite hop.buffered accepted).arrived.IsPrefix sent := by
    apply ordered.write
    intro isOpen
    have line := ordered.line isOpen
    simp only [Hop.Line, phase] at line
    exact ⟨hop.unread, line.2⟩
  refine ⟨arrived, ?_, ?_⟩
  · intro isOpen
    have frame := hop.transportWrite_frame hop.buffered accepted
    obtain ⟨arrived, unflushed, frame⟩ := frame
    rw [frame] at isOpen
    have line := ordered.line isOpen
    have written := hop.transportWrite_line isOpen hop.buffered accepted
    simp only [Hop.Line, phase] at line ⊢
    rw [written, frame]
    exact line
  · intro ended
    obtain ⟨arrived, unflushed, frame⟩ := hop.transportWrite_frame hop.buffered accepted
    rw [frame] at ended ⊢
    exact ordered.ended ended

theorem Hop.Ordered.relay (ordered : hop.Ordered sent) (phase : hop.phase = .pumping)
    (count accepted : Nat) :
    Hop.Ordered sent { hop.transportWrite (hop.buffered.take count) accepted with
      phase := .relaying
      buffered := hop.buffered.drop count } := by
  have split (isOpen : hop.downstreamClosed = false) : hop.carried = [] ∧
      hop.arrived ++ hop.unflushed ++ hop.buffered.take count ++ hop.buffered.drop count ++
        hop.unread = sent := by
    have line := ordered.line isOpen
    simp only [Hop.Line, phase] at line
    refine ⟨line.1, ?_⟩
    rw [← line.2]
    simp only [List.append_assoc, List.take_append_drop]
  have arrived : (hop.transportWrite (hop.buffered.take count) accepted).arrived.IsPrefix
      sent := by
    apply ordered.write
    intro isOpen
    rw [← (split isOpen).2, List.append_assoc _ (hop.buffered.drop count)]
    exact List.prefix_append _ _
  refine ⟨arrived, ?_, ?_⟩
  · intro isOpen
    obtain ⟨arrived, unflushed, frame⟩ :=
      hop.transportWrite_frame (hop.buffered.take count) accepted
    rw [frame] at isOpen
    have written := hop.transportWrite_line isOpen (hop.buffered.take count) accepted
    simp only [Hop.Line]
    rw [written, frame]
    exact split isOpen
  · intro ended
    obtain ⟨arrived, unflushed, frame⟩ :=
      hop.transportWrite_frame (hop.buffered.take count) accepted
    rw [frame] at ended ⊢
    exact ordered.ended ended

/-- A direct write keeps its place in the line where the transport has nothing left. -/
theorem Hop.Ordered.workerWrite (ordered : hop.Ordered sent) (phase : hop.phase = .working)
    {count : Nat} (orderly : Orderly hop (.write count)) :
    (hop.workerWrite count).Ordered sent := by
  unfold Hop.workerWrite
  cases closed : hop.downstreamClosed with
  | true =>
      rw [if_pos rfl]
      exact ordered.ofClosed rfl rfl ordered.ended
  | false =>
      rw [if_neg Bool.false_ne_true]
      have line := ordered.line closed
      simp only [Hop.Line, phase] at line
      have moved : hop.arrived ++ hop.carried.take count ++ hop.unflushed ++
          hop.carried.drop count ++ hop.unread = sent := by
        rw [← line.2]
        rcases orderly with gone | nothing | empty
        · rw [closed] at gone
          cases gone
        · have kept := List.take_append_drop count hop.carried
          rw [nothing, List.nil_append] at kept
          rw [nothing, kept, List.append_nil]
        · rw [empty, List.append_nil, List.append_nil, List.append_assoc hop.arrived,
            List.take_append_drop]
      refine ⟨?_, ?_, ordered.ended⟩
      · refine ⟨hop.unflushed ++ hop.carried.drop count ++ hop.unread, ?_⟩
        rw [← moved]
        simp only [List.append_assoc]
      · intro _
        simp only [Hop.Line, phase]
        exact ⟨line.1, moved⟩

theorem Hop.Ordered.flush (ordered : hop.Ordered sent)
    (isOpen : hop.downstreamClosed = false) (count : Nat) :
    Hop.Ordered sent { hop with
      arrived := hop.arrived ++ hop.unflushed.take count
      unflushed := hop.unflushed.drop count } := by
  have whole : hop.arrived ++ hop.unflushed.take count ++ hop.unflushed.drop count =
      hop.arrived ++ hop.unflushed := by
    rw [List.append_assoc, List.take_append_drop]
  have line := ordered.line isOpen
  by_cases closed : hop.phase = .closed
  · simp only [Hop.Line, closed] at line
    refine ⟨?_, ?_, ordered.ended⟩
    · rw [line.1, List.take_nil, List.append_nil]
      exact ordered.arrived
    · intro _
      simp only [Hop.Line, closed]
      rw [line.1, List.take_nil, List.append_nil]
      exact ⟨List.drop_nil, line.2⟩
  · refine ⟨?_, ?_, ordered.ended⟩
    · refine List.IsPrefix.trans ?_ (line.isPrefix closed)
      rw [← whole]
      exact List.prefix_append _ _
    · intro _
      cases stands : hop.phase with
      | closed => exact absurd stands closed
      | dispatching | paused | settled | draining | drained | working | pumping | relaying
      | closing =>
          simp only [Hop.Line, stands] at line ⊢
          rw [whole]
          exact line

/-- What is under way when the pump fails or is cancelled stays in its order; a native
worker goes on with it. -/
theorem Hop.Ordered.fail (ordered : hop.Ordered sent) (phase : hop.phase ≠ .closed) :
    Hop.Ordered sent { hop with
      failed := true
      phase := if hop.phase = .working then .working else .closing } where
  arrived := ordered.arrived
  line isOpen := by
    have line := ordered.line isOpen
    split
    · rename_i working
      simp only [Hop.Line, working] at line ⊢
      exact line
    · exact ⟨line.isPrefix phase, fun failed => by cases failed⟩
  ended := ordered.ended

theorem Hop.Ordered.next (ordered : hop.Ordered sent) (orderly : Orderly hop event)
    (step : Handover.next mark hop event = some after) : after.Ordered sent := by
  cases event with
  | feed count =>
      simp only [Handover.next, Option.ite_none_right_eq_some, Option.some.injEq,
        Bool.and_eq_true, Bool.not_eq_true'] at step
      obtain ⟨⟨reads, reading⟩, rfl⟩ := step
      exact ordered.feed reads reading count
  | eof =>
      simp only [Handover.next, Option.ite_none_right_eq_some, Option.some.injEq,
        Bool.and_eq_true, List.isEmpty_iff] at step
      obtain ⟨⟨_, exhausted⟩, rfl⟩ := step
      exact ⟨ordered.arrived, ordered.line, fun _ => exhausted⟩
  | pause =>
      simp only [Handover.next, Option.ite_none_right_eq_some, Option.some.injEq,
        Bool.and_eq_true, decide_eq_true_eq] at step
      obtain ⟨⟨phase, _⟩, rfl⟩ := step
      apply ordered.stand
      intro line
      simp only [Hop.Line, phase] at line ⊢
      exact line
  | settle =>
      simp only [Handover.next, Option.ite_none_right_eq_some, Option.some.injEq] at step
      obtain ⟨phase, rfl⟩ := step
      apply ordered.stand
      intro line
      simp only [Hop.Line, phase] at line ⊢
      exact line
  | deliver accepted =>
      simp only [Handover.next, Option.ite_none_right_eq_some] at step
      obtain ⟨phase, step⟩ := step
      split at step
      · rename_i empty
        cases step
        apply ordered.stand
        intro line
        simp only [Hop.Line, phase] at line ⊢
        rw [List.isEmpty_iff] at empty
        rw [empty, List.append_nil] at line
        exact ⟨line.1, empty, line.2⟩
      · cases step
        exact ordered.deliver phase accepted
  | drain =>
      simp only [Handover.next, Option.ite_none_right_eq_some, Option.some.injEq,
        Bool.and_eq_true, decide_eq_true_eq] at step
      obtain ⟨⟨phase, _⟩, rfl⟩ := step
      refine ⟨ordered.arrived, ?_, ordered.ended⟩
      intro isOpen
      have line := ordered.line isOpen
      simp only [Hop.Line, phase] at line ⊢
      exact ⟨line.1, trivial, line.2⟩
  | handOff named =>
      simp only [Handover.next, Option.ite_none_right_eq_some, Option.some.injEq] at step
      obtain ⟨phase, rfl⟩ := step
      have same : hop.reopened named = hop.unread := by
        unfold Hop.reopened
        split
        · rename_i ended
          rw [ordered.ended ended]
          exact orderly ended
        · rfl
      rw [same]
      apply ordered.stand
      intro line
      simp only [Hop.Line, phase] at line ⊢
      rw [line.1, List.append_nil]
      exact line.2
  | decline =>
      simp only [Handover.next, Option.ite_none_right_eq_some, Option.some.injEq,
        Bool.or_eq_true, decide_eq_true_eq] at step
      obtain ⟨phase | phase, rfl⟩ := step
      · apply ordered.stand
        intro line
        simp only [Hop.Line, phase] at line ⊢
        exact line
      · apply ordered.stand
        intro line
        simp only [Hop.Line, phase] at line ⊢
        rw [line.2.1, List.append_nil]
        exact ⟨line.1, line.2.2⟩
  | read count =>
      simp only [Handover.next, Option.ite_none_right_eq_some, Option.some.injEq,
        Bool.and_eq_true, decide_eq_true_eq, List.isEmpty_iff] at step
      obtain ⟨⟨phase, empty⟩, rfl⟩ := step
      refine ⟨ordered.arrived, ?_, ?_⟩
      · intro isOpen
        have line := ordered.line isOpen
        simp only [Hop.Line, phase] at line ⊢
        refine ⟨line.1, ?_⟩
        rw [← line.2, empty]
        simp only [List.append_assoc, List.take_append_drop, List.nil_append]
      · intro ended
        rw [ordered.ended ended]
        exact List.drop_nil
  | write count =>
      simp only [Handover.next, Option.ite_none_right_eq_some, Option.some.injEq] at step
      obtain ⟨phase, rfl⟩ := step
      exact ordered.workerWrite phase orderly
  | finish =>
      simp only [Handover.next, Option.ite_none_right_eq_some, Option.some.injEq,
        Bool.and_eq_true, decide_eq_true_eq, List.isEmpty_iff] at step
      obtain ⟨⟨⟨phase, written⟩, exhausted⟩, rfl⟩ := step
      apply ordered.stand
      intro line
      simp only [Hop.Line, phase, written, exhausted, List.append_nil] at line ⊢
      exact ⟨⟨[], by rw [line.2, List.append_nil]⟩, fun _ => line.2⟩
  | relay count accepted =>
      simp only [Handover.next, Option.ite_none_right_eq_some, Option.some.injEq,
        Bool.and_eq_true, decide_eq_true_eq] at step
      obtain ⟨⟨phase, _⟩, rfl⟩ := step
      exact ordered.relay phase count accepted
  | relayed =>
      simp only [Handover.next, Option.ite_none_right_eq_some, Option.some.injEq,
        Bool.and_eq_true, decide_eq_true_eq] at step
      obtain ⟨⟨phase, _⟩, rfl⟩ := step
      apply ordered.stand
      intro line
      simp only [Hop.Line, phase] at line ⊢
      exact line
  | relayEof =>
      simp only [Handover.next, Option.ite_none_right_eq_some, Option.some.injEq,
        Bool.and_eq_true, decide_eq_true_eq, List.isEmpty_iff] at step
      obtain ⟨⟨⟨phase, relayed⟩, ended⟩, rfl⟩ := step
      apply ordered.stand
      intro line
      simp only [Hop.Line, phase, relayed, ordered.ended ended, List.append_nil] at line ⊢
      exact ⟨⟨[], by rw [line.2, List.append_nil]⟩, fun _ => line.2⟩
  | flush count =>
      simp only [Handover.next, Option.ite_none_left_eq_some, Option.some.injEq,
        Bool.not_eq_true] at step
      obtain ⟨isOpen, rfl⟩ := step
      exact ordered.flush isOpen count
  | close =>
      simp only [Handover.next, Option.ite_none_right_eq_some, Option.some.injEq,
        Bool.and_eq_true, decide_eq_true_eq, List.isEmpty_iff] at step
      obtain ⟨⟨phase, flushed⟩, rfl⟩ := step
      apply ordered.stand
      intro line
      simp only [Hop.Line, phase, flushed, List.append_nil] at line ⊢
      exact ⟨trivial, line.2⟩
  | giveUp =>
      simp only [Handover.next, Option.ite_none_right_eq_some, Option.some.injEq,
        Bool.and_eq_true, decide_eq_true_eq] at step
      obtain ⟨⟨phase, closed⟩, rfl⟩ := step
      exact ordered.ofClosed closed rfl ordered.ended
  | closeDownstream =>
      cases step
      exact ordered.ofClosed rfl rfl ordered.ended
  | fail =>
      simp only [Handover.next, Option.ite_none_left_eq_some, Option.some.injEq] at step
      obtain ⟨phase, rfl⟩ := step
      exact ordered.fail phase

end Step

/-! Had the pump waited for the transport to write out what it gave it, the worker would
always find its place. -/

section Flushed

variable {hop after : Hop α} {event : Event α}

/-- The phases in which the pump has given the transport nothing that still waits, if its
drain waits for all. -/
def Phase.flushed : Phase → Bool
  | .dispatching | .paused | .settled | .drained | .working => true
  | .draining | .pumping | .relaying | .closing | .closed => false

def Hop.Flushed (hop : Hop α) : Prop :=
  hop.phase.flushed = true → hop.downstreamClosed = false → hop.unflushed = []

theorem Hop.flushed_of_phase (phase : hop.phase.flushed = false) : hop.Flushed := by
  intro flushed
  rw [phase] at flushed
  cases flushed

theorem Hop.Flushed.next (flushed : hop.Flushed) (step : Handover.next 0 hop event = some after) :
    after.Flushed := by
  cases event with
  | feed count =>
      simp only [Handover.next, Option.ite_none_right_eq_some, Option.some.injEq] at step
      obtain ⟨_, rfl⟩ := step
      exact flushed
  | eof =>
      simp only [Handover.next, Option.ite_none_right_eq_some, Option.some.injEq] at step
      obtain ⟨_, rfl⟩ := step
      exact flushed
  | pause =>
      simp only [Handover.next, Option.ite_none_right_eq_some, Option.some.injEq,
        Bool.and_eq_true, decide_eq_true_eq] at step
      obtain ⟨⟨phase, _⟩, rfl⟩ := step
      exact fun _ => flushed (by rw [phase]; rfl)
  | settle =>
      simp only [Handover.next, Option.ite_none_right_eq_some, Option.some.injEq] at step
      obtain ⟨phase, rfl⟩ := step
      exact fun _ => flushed (by rw [phase]; rfl)
  | deliver accepted =>
      simp only [Handover.next, Option.ite_none_right_eq_some] at step
      obtain ⟨phase, step⟩ := step
      split at step
      · cases step
        exact fun _ => flushed (by rw [phase]; rfl)
      · cases step
        exact Hop.flushed_of_phase rfl
  | drain =>
      simp only [Handover.next, Option.ite_none_right_eq_some, Option.some.injEq,
        Bool.and_eq_true] at step
      obtain ⟨⟨_, returns⟩, rfl⟩ := step
      intro _ isOpen
      rw [Hop.drainReturns, isOpen, Bool.false_or, decide_eq_true_eq, Nat.le_zero] at returns
      exact List.length_eq_zero_iff.mp returns
  | handOff named =>
      simp only [Handover.next, Option.ite_none_right_eq_some, Option.some.injEq] at step
      obtain ⟨phase, rfl⟩ := step
      exact fun _ => flushed (by rw [phase]; rfl)
  | decline | finish | relayed | relayEof | close | giveUp =>
      simp only [Handover.next, Option.ite_none_right_eq_some, Option.some.injEq] at step
      obtain ⟨_, rfl⟩ := step
      exact Hop.flushed_of_phase rfl
  | read count =>
      simp only [Handover.next, Option.ite_none_right_eq_some, Option.some.injEq] at step
      obtain ⟨_, rfl⟩ := step
      exact flushed
  | write count =>
      simp only [Handover.next, Option.ite_none_right_eq_some, Option.some.injEq] at step
      obtain ⟨_, rfl⟩ := step
      unfold Hop.workerWrite
      split
      · exact flushed
      · exact flushed
  | relay count accepted =>
      simp only [Handover.next, Option.ite_none_right_eq_some, Option.some.injEq] at step
      obtain ⟨_, rfl⟩ := step
      exact Hop.flushed_of_phase rfl
  | flush count =>
      simp only [Handover.next, Option.ite_none_left_eq_some, Option.some.injEq] at step
      obtain ⟨_, rfl⟩ := step
      intro phase isOpen
      change hop.unflushed.drop count = []
      rw [flushed phase isOpen, List.drop_nil]
  | closeDownstream =>
      cases step
      exact fun _ _ => rfl
  | fail =>
      simp only [Handover.next, Option.ite_none_left_eq_some, Option.some.injEq] at step
      obtain ⟨_, rfl⟩ := step
      intro phase isOpen
      change hop.unflushed = []
      split at phase
      · rename_i working
        exact flushed (by rw [working]; rfl) isOpen
      · cases phase

theorem orderly_of_flushed {unread buffered : List α} {events : List (Event α)}
    {hop : Hop α}
    (runs : (pump 0 unread buffered).exec (pump 0 unread buffered).initial events = some hop)
    (named : ∀ file before, (pump 0 unread buffered).Took events (.handOff file) before →
      before.readerClosed = true → file = [])
    {event : Event α} {before : Hop α}
    (took : (pump 0 unread buffered).Took events event before) : Orderly before event := by
  cases event with
  | write count =>
      obtain ⟨front, back, split, reached⟩ := took
      rw [split, System.exec_append, reached, Option.bind_some, System.exec_cons,
        Option.bind_eq_some_iff] at runs
      obtain ⟨after, step, _⟩ := runs
      have working : before.phase = .working := (Option.ite_none_right_eq_some.mp step).1
      have flushed : before.Flushed :=
        (pump 0 unread buffered).exec_invariant (fun flushed step => flushed.next step)
          (fun _ _ => rfl) reached
      cases closed : before.downstreamClosed with
      | true => exact .inl closed
      | false => exact .inr (.inr (flushed (by rw [working]; rfl) closed))
  | handOff file => exact named file before took
  | feed | eof | pause | settle | deliver | drain | decline | read | finish | relay | relayed
  | relayEof | flush | close | giveUp | closeDownstream | fail => trivial

end Flushed

section Run

/-- A hop delivers in order, and all of it unless something ended it early, where its
worker's steps keep to the order. -/
theorem arrives_in_order (mark : Nat) (unread buffered : List α) {events : List (Event α)}
    {hop : Hop α}
    (runs : (pump mark unread buffered).exec (pump mark unread buffered).initial events =
      some hop)
    (orderly : ∀ event before, (pump mark unread buffered).Took events event before →
      Orderly before event) :
    hop.arrived.IsPrefix (buffered ++ unread) ∧
      (hop.phase = .closed → hop.failed = false → hop.downstreamClosed = false →
        hop.arrived = buffered ++ unread) := by
  have ordered : hop.Ordered (buffered ++ unread) := by
    revert orderly
    refine @System.exec_history _ _ (pump mark unread buffered) (fun events hop =>
      (∀ event before, (pump mark unread buffered).Took events event before →
        Orderly before event) → hop.Ordered (buffered ++ unread)) ?_ ?_ _ _ runs
    · intro _
      exact ⟨List.nil_prefix, fun _ => ⟨rfl, rfl⟩, fun ended => by cases ended⟩
    · intro events hop event after reached induction step orderly
      have taken := (System.took_concat _ reached event event hop).mpr (.inr ⟨rfl, rfl⟩)
      apply Hop.Ordered.next ?_ (orderly event hop taken) step
      apply induction
      intro earlier before took
      exact orderly earlier before
        ((System.took_concat _ reached event earlier before).mpr (.inl took))
  refine ⟨ordered.arrived, ?_⟩
  intro closed succeeded isOpen
  have line := ordered.line isOpen
  simp only [Hop.Line, closed] at line
  exact line.2 succeeded

/-- Where the transport writes out what it was given before the worker begins, all of it
comes to the downstream in order. -/
theorem arrives_in_order_handed_off :
    ∃ hop, (pump 0 [3, 4] [1, 2]).exec (pump 0 [3, 4] [1, 2]).initial
        [.pause, .feed 1, .settle, .deliver 1, .flush 2, .drain, .handOff [], .read 4,
          .write 1, .finish, .close] = some hop ∧
      hop.phase = .closed ∧ hop.arrived.IsPrefix ([1, 2] ++ [3, 4]) ∧
        (hop.phase = .closed → hop.failed = false → hop.downstreamClosed = false →
          hop.arrived = [1, 2] ++ [3, 4]) := by
  have runs : (pump 0 [3, 4] [1, 2]).exec (pump 0 [3, 4] [1, 2]).initial
      [.pause, .feed 1, .settle, .deliver 1, .flush 2, .drain, .handOff [], .read 4,
        .write 1, .finish, .close] =
      some { phase := .closed, unread := [], buffered := [], arrived := [1, 2, 3, 4] } := rfl
  refine ⟨_, runs, rfl, arrives_in_order 0 [3, 4] [1, 2] runs ?_⟩
  intro event before took
  apply orderly_of_flushed runs ?_ took
  intro file before took _
  obtain ⟨front, back, split, _⟩ := took
  have named : Event.handOff file ∈
      [.pause, .feed 1, .settle, .deliver 1, .flush 2, .drain, .handOff [], .read 4,
        .write 1, .finish, .close] := by
    rw [split]
    exact List.mem_append_right _ (List.mem_cons_self ..)
  simpa using named

/-- Where the pipe takes only a part of what asyncio held, the drain returns all the
same, and the worker's first byte comes before the rest. -/
theorem worker_overtakes {mark : Nat} (taken waiting : List α) (byte : α)
    (fits : waiting.length ≤ mark) (some_held : taken ++ waiting ≠ []) :
    (pump mark [byte] (taken ++ waiting)).exec (pump mark [byte] (taken ++ waiting)).initial
        [.pause, .settle, .deliver taken.length, .drain, .handOff [], .read 1, .write 1] =
      some {
        phase := .working
        unread := []
        buffered := []
        unflushed := waiting
        arrived := taken ++ [byte] } := by
  simp [System.exec_cons, pump, next, Hop.transportWrite, Hop.drainReturns, Hop.reopened,
    Hop.workerWrite, fits, some_held]

theorem held_bytes_are_overtaken :
    ∃ hop, (pump 65536 [2] (List.replicate 65536 1 ++ List.replicate 36864 1)).exec
        (pump 65536 [2] (List.replicate 65536 1 ++ List.replicate 36864 1)).initial
        [.pause, .settle, .deliver (List.replicate 65536 1).length, .drain, .handOff [],
          .read 1, .write 1] = some hop ∧
      ¬ hop.arrived.IsPrefix
        (List.replicate 65536 1 ++ List.replicate 36864 1 ++ [2]) := by
  refine ⟨_, worker_overtakes (List.replicate 65536 1) (List.replicate 36864 1) 2 ?_ ?_, ?_⟩
  · rw [List.length_replicate]
    decide
  · intro empty
    have counted := congrArg List.length empty
    rw [List.length_append, List.length_replicate, List.length_nil] at counted
    omega
  · intro overtaken
    rw [List.append_assoc] at overtaken
    have next := (List.prefix_append_right_inj _).mp overtaken
    rw [List.replicate_succ, List.cons_append, List.cons_prefix_cons] at next
    exact absurd next.1 (by decide)

end Run

end Cuprum.Handover
