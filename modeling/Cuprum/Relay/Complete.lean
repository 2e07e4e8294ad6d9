import Cuprum.Relay.Closing

namespace Cuprum.Relay

open Effect

variable (replies : Replies)

/-- What a pump promises of its deeds, with what it raised. -/
structure Delivered (measured : Option StreamOperationMeasurement)
    (failure : Option Raised) (deeds : List Deed) : Prop where
  carried : Carried replies.hasWriter deeds
  readOn : ReadOn deeds
  closed : deeds.count .closed = if replies.hasWriter then 1 else 0
  completed : ∃ outcome, completions deeds = measured.toList.map fun measurement =>
    { measurement.event replies.clock outcome with
      bytesConsumed := (received deeds).flatten.length
      readOperations := (received deeds).length }
  truthful : ∀ event ∈ completions deeds,
    Truthful replies.hasReader failure deeds event.outcome

theorem after_eq (measurement : StreamOperationMeasurement) (reads : List (List UInt8)) :
    measurement.after reads =
      { measurement with
        bytesConsumed := measurement.bytesConsumed + reads.flatten.length
        readOperations := measurement.readOperations + reads.length } := by
  induction reads generalizing measurement with
  | nil => rfl
  | cons chunk rest ih =>
      change (measurement.recordRead chunk).after rest = _
      rw [ih]
      simp only [StreamOperationMeasurement.recordRead, List.flatten_cons, List.length_append,
        List.length_cons, Nat.add_assoc, Nat.add_comm 1]

theorem Carried.then_silent {hasWriter : Bool} {deeds rest : List Deed}
    (carried : Carried hasWriter deeds) (silent : Silent rest) :
    Carried hasWriter (deeds ++ rest) := by
  unfold Carried at carried ⊢
  cases hasWriter with
  | true => exact silent.faithful carried
  | false =>
      refine ⟨?_, ?_⟩
      · rw [silent.mem_append_iff rfl]
        exact carried.1
      · rw [handed_append, carried.2, silent.handed_nil, List.append_nil]

/-- Whether a pump takes a failing read for the end of its drain window. -/
def Replies.mistaken : Bool :=
  replies.hasReader && replies.misread

variable (measured : Option StreamOperationMeasurement)

/-- A pump that is to be closed. -/
structure Ready (relayed : List Deed) (transfer : Transfer) : Prop where
  carried : Carried replies.hasWriter relayed
  unsettled : Unsettled relayed
  readOn : ReadOn relayed
  noted : transfer.deeds = relayed
  counted : transfer.measurement = measured.map (·.after (received relayed))

/-- A pump that is to be completed. -/
structure Torn (relayed : List Deed) (transfer : Transfer) : Prop where
  carried : Carried replies.hasWriter relayed
  unsettled : Unsettled relayed
  readOn : ReadOn relayed
  noted : ∃ closing, Closing replies.closings closing ∧ transfer.deeds = relayed ++ closing
  counted : transfer.measurement = measured.map (·.after (received relayed))

variable {replies measured}
variable {relayed : List Deed} {transfer : Transfer}

theorem Ready.torn (ready : Ready replies measured relayed transfer) {closing : List Deed}
    {after : Transfer} (did : Did transfer closing after)
    (closed : Closing replies.closings closing) : Torn replies measured relayed after where
  carried := ready.carried
  unsettled := ready.unsettled
  readOn := ready.readOn
  noted := ⟨closing, closed, by rw [did.noted, ready.noted]⟩
  counted := by
    rw [did.counted, closed.silent.received_nil, ready.counted, Option.map_map]
    rfl

theorem Ready.closes (ready : Ready replies measured relayed transfer) :
    Ends (closeStreamWriter replies)
      (fun _ after => Torn replies measured relayed after ∧
        after.outcome = transfer.outcome ∧ replies.closesQuietly = true)
      (fun _ after => Torn replies measured relayed after ∧ replies.closesQuietly = false)
      transfer := by
  refine (leaves_close replies transfer).mono ?_ ?_
  · rintro - after ⟨closing, did, closed, quiet⟩
    exact ⟨ready.torn did closed, did.outcome, quiet⟩
  · rintro - after ⟨closing, did, closed, loud⟩
    exact ⟨ready.torn did closed, loud⟩

/-- The end of the relay, from a fresh transfer. -/
theorem ends_relay (replies : Replies) (measured : Option StreamOperationMeasurement) :
    Ends
      (do
        if replies.hasReader then
          let outcome ← relayChunks replies
          assign outcome
        else pure ())
      (fun _ after => ∃ relayed, Ready replies measured relayed after ∧
        Relaid replies.hasReader replies.mistaken after.outcome relayed)
      (fun _ after => ∃ relayed, Ready replies measured relayed after ∧
        replies.mistaken = false)
      { measurement := measured } := by
  unfold Replies.mistaken
  refine .branch (fun reading => ?_) fun idle => .returns ?_
  · rw [reading, Bool.true_and]
    refine .bind ((leaves_relayChunks replies _).mono ?_ ?_)
    · rintro outcome after ⟨deeds, did, carried, relaid⟩
      exact .updates ⟨deeds, ⟨carried, relaid.unsettled, relaid.readOn, did.noted,
        did.counted⟩, relaid⟩
    · rintro - after ⟨deeds, did, carried, abandoned⟩
      exact ⟨deeds, ⟨carried, abandoned.unsettled, abandoned.readOn, did.noted,
        did.counted⟩, abandoned.unmistaken⟩
  · have unread := Bool.eq_false_iff.mpr idle
    have carried : Carried replies.hasWriter [] := by
      unfold Carried
      split
      · exact .inl ⟨List.not_mem_nil, rfl⟩
      · exact ⟨List.not_mem_nil, rfl⟩
    have unsettled : Unsettled [] := fun _ mem => absurd mem List.not_mem_nil
    have readOn : ReadOn [] := fun mem => absurd mem List.not_mem_nil
    rw [unread, Bool.false_and]
    refine ⟨[], ⟨carried, unsettled, readOn, rfl, by cases measured <;> rfl⟩, unsettled,
      readOn, fun _ => ⟨rfl, List.not_mem_nil, ?_⟩, ?_⟩
    · intro read
      contradiction
    · intro mistakes
      contradiction

theorem ends_transfer (replies : Replies) (measured : Option StreamOperationMeasurement) :
    Ends
      (tryFinally
        (do
          if replies.hasReader then
            let outcome ← relayChunks replies
            assign outcome
          else pure ())
        (closeStreamWriter replies))
      (fun _ after => ∃ relayed, Torn replies measured relayed after ∧
        Relaid replies.hasReader replies.mistaken after.outcome relayed ∧
          replies.closesQuietly = true)
      (fun _ after => ∃ relayed, Torn replies measured relayed after ∧
        (replies.mistaken = false ∨ replies.closesQuietly = false))
      { measurement := measured } := by
  refine .ensure ((ends_relay replies measured).mono ?_ ?_)
  · rintro - middle ⟨relayed, ready, relaid⟩
    refine ready.closes.mono ?_ ?_
    · rintro - after ⟨torn, kept, quiet⟩
      exact ⟨relayed, torn, kept ▸ relaid, quiet⟩
    · rintro - after ⟨torn, loud⟩
      exact ⟨relayed, torn, .inr loud⟩
  · rintro - middle ⟨relayed, ready, unmistaken⟩
    refine ready.closes.mono ?_ ?_
    · rintro - after ⟨torn, -, -⟩
      exact ⟨relayed, torn, .inl unmistaken⟩
    · rintro - after ⟨torn, loud⟩
      exact ⟨relayed, torn, .inr loud⟩

def Transfer.completion (transfer : Transfer) (clock : Int) : List StreamOperationEvent :=
  transfer.measurement.toList.map fun measurement => measurement.event clock transfer.outcome

theorem ends_complete (clock : Int) (transfer : Transfer)
    {returned : Unit → Transfer → Prop} {raised : Raised → Transfer → Prop}
    (holds : ∀ after, after.deeds = transfer.deeds ++
      (transfer.completion clock).map .completed → returned () after) :
    Ends (completeStreamOperation clock) returned raised transfer := by
  unfold Transfer.completion at holds
  refine .bind (.reads ?_)
  cases measuring : transfer.measurement with
  | none =>
      refine .returns (holds transfer ?_)
      rw [measuring, Option.toList_none, List.map_nil, List.map_nil, List.append_nil]
  | some measurement =>
      refine .updates (holds _ ?_)
      rw [measuring]
      rfl

theorem silent_completed (events : List StreamOperationEvent) :
    Silent (events.map .completed) := by
  intro deed mem
  obtain ⟨event, -, rfl⟩ := List.mem_map.mp mem
  rfl

theorem completions_completed (events : List StreamOperationEvent) :
    completions (events.map .completed) = events := by
  rw [completions, List.filterMap_map]
  exact List.filterMap_some

namespace Torn

variable {deeds : List Deed}

theorem completion_eq (torn : Torn replies measured relayed transfer)
    (fresh : ∀ measurement ∈ measured,
      measurement.bytesConsumed = 0 ∧ measurement.readOperations = 0) :
    transfer.completion replies.clock = measured.toList.map fun measurement =>
      { measurement.event replies.clock transfer.outcome with
        bytesConsumed := (received relayed).flatten.length
        readOperations := (received relayed).length } := by
  rw [Transfer.completion, torn.counted]
  cases measured with
  | none => rfl
  | some measurement =>
      obtain ⟨bytes, reads⟩ := fresh measurement rfl
      change [((measurement.after (received relayed)).event replies.clock transfer.outcome)] = [_]
      rw [after_eq, bytes, reads, Nat.zero_add, Nat.zero_add]
      rfl

/-- What is left to promise of a pump once it has been closed. -/
theorem delivered_iff (torn : Torn replies measured relayed transfer)
    (fresh : ∀ measurement ∈ measured,
      measurement.bytesConsumed = 0 ∧ measurement.readOperations = 0)
    (noted : deeds = transfer.deeds ++ (transfer.completion replies.clock).map .completed)
    (failure : Option Raised) :
    Delivered replies measured failure deeds ↔
      (replies.hasWriter = true → replies.closes = true) ∧
        (measured.isSome = true →
          Truthful replies.hasReader failure relayed transfer.outcome) := by
  obtain ⟨closing, closed, split⟩ := torn.noted
  have quiet : Silent (closing ++ (transfer.completion replies.clock).map .completed) := by
    intro deed mem
    rcases List.mem_append.mp mem with first | second
    · exact closed.silent deed first
    · exact silent_completed _ deed second
  have uncounted : ((transfer.completion replies.clock).map Deed.completed).count .closed = 0 :=
    List.count_eq_zero.mpr (by simp)
  have whole : deeds =
      relayed ++ (closing ++ (transfer.completion replies.clock).map .completed) := by
    rw [noted, split, List.append_assoc]
  have reads : received deeds = received relayed := by
    rw [whole, received_append, quiet.received_nil, List.append_nil]
  have completed : completions deeds = transfer.completion replies.clock := by
    rw [whole, completions_append, completions_append, torn.unsettled.completions_nil,
      closed.uncompleted, completions_completed]
    rfl
  have calls : deeds.count .closed = replies.closings := by
    rw [whole, List.count_append, List.count_append, torn.unsettled.unclosed, closed.called,
      uncounted, Nat.zero_add, Nat.add_zero]
  have counted := torn.completion_eq fresh
  constructor
  · intro delivered
    refine ⟨fun written => ?_, fun observed => ?_⟩
    · have once := delivered.closed
      rw [calls, Replies.closings, written, Bool.true_and] at once
      cases closes : replies.closes with
      | true => rfl
      | false =>
          rw [closes] at once
          contradiction
    · obtain ⟨measurement, rfl⟩ := Option.isSome_iff_exists.mp observed
      have told := delivered.truthful
      rw [completed, counted] at told
      have spoken := told _ (List.mem_singleton.mpr rfl)
      rw [whole] at spoken
      exact quiet.truthful_iff.mp spoken
  · rintro ⟨closes, told⟩
    refine ⟨?_, ?_, ?_, ⟨transfer.outcome, ?_⟩, ?_⟩
    · rw [whole]
      exact torn.carried.then_silent quiet
    · rw [whole]
      exact quiet.readOn torn.readOn
    · rw [calls, Replies.closings]
      cases written : replies.hasWriter with
      | false => rfl
      | true =>
          rw [closes written]
          rfl
    · rw [completed, counted, reads]
    · intro event mem
      rw [completed, counted] at mem
      obtain ⟨measurement, present, rfl⟩ := List.mem_map.mp mem
      rw [whole]
      refine quiet.truthful_iff.mpr (told ?_)
      cases measured with
      | none => exact absurd present List.not_mem_nil
      | some => rfl

end Torn

theorem fresh_start (operation : StreamOperation) (hooked : Bool) (clock : Int)
    (execId : Option Nat) :
    ∀ measurement ∈ startStreamOperation operation hooked clock execId,
      measurement.bytesConsumed = 0 ∧ measurement.readOperations = 0 := by
  intro measurement mem
  cases hooked with
  | false => contradiction
  | true =>
      cases mem
      exact ⟨rfl, rfl⟩

theorem truthful_raised (hasReader : Bool) (error : Raised) (deeds : List Deed) :
    Truthful hasReader (some error) deeds
      (if error = .cancelled then .cancelled else .failed) := by
  split
  · next cancelled => exact congrArg some cancelled
  · next uncancelled => exact ⟨by simp, by simpa using uncancelled⟩

/-- A pump keeps its promises unless `write_eof` keeps it from its close, or a read that
raises `TimeoutError` is taken for the end of its drain window. -/
theorem pump_delivers_iff (replies : Replies) (hooked : Bool) (started : Int)
    (execId : Option Nat) :
    Ends (pumpStream replies)
      (fun _ after => Delivered replies
        (startStreamOperation .pipelineTransfer hooked started execId) none after.deeds)
      (fun error after => Delivered replies
        (startStreamOperation .pipelineTransfer hooked started execId) (some error) after.deeds)
      { measurement := startStreamOperation .pipelineTransfer hooked started execId } ↔
      (replies.hasWriter = true → replies.closes = true) ∧
        ¬(hooked = true ∧ replies.mistaken = true ∧ replies.closesQuietly = true) := by
  have fresh := fresh_start .pipelineTransfer hooked started execId
  have observed : (startStreamOperation .pipelineTransfer hooked started execId).isSome =
      hooked := by cases hooked <;> rfl
  apply ends_iff
  refine .ensure (.handle ((ends_transfer replies _).mono ?_ ?_))
  · rintro - middle ⟨relayed, torn, relaid, quiet⟩
    refine ends_complete replies.clock middle fun after noted => ?_
    rw [torn.delivered_iff fresh noted none, observed]
    refine and_congr_right fun _ => ⟨?_, ?_⟩
    · rintro told ⟨watched, mistaken, -⟩
      obtain ⟨timedOut, timely⟩ := relaid.mistold mistaken
      have spoken := told watched
      rw [timedOut] at spoken
      exact timely spoken.2.2
    · intro sound watched
      refine relaid.told (Bool.eq_false_iff.mpr fun mistaken => ?_)
      exact sound ⟨watched, mistaken, quiet⟩
  · rintro error middle ⟨relayed, torn, excused⟩
    refine .bind (.updates (.raises ?_))
    refine ends_complete replies.clock _ fun after noted => ?_
    have assigned : Torn replies
        (startStreamOperation .pipelineTransfer hooked started execId) relayed
        { middle with outcome := if error = .cancelled then .cancelled else .failed } :=
      ⟨torn.carried, torn.unsettled, torn.readOn, torn.noted, torn.counted⟩
    rw [assigned.delivered_iff fresh noted (some error)]
    refine and_congr_right fun _ => ⟨?_, ?_⟩
    · rintro - ⟨-, mistaken, quiet⟩
      rcases excused with unmistaken | loud
      · rw [mistaken] at unmistaken
        contradiction
      · rw [quiet] at loud
        contradiction
    · rintro - -
      exact truthful_raised replies.hasReader error relayed

/-- A writer whose `write_eof` fails is never closed. -/
theorem failed_eof_leaves_writer_open :
    ¬ Ends (pumpStream { writeEof := some (.other 1) })
      (fun _ after => Delivered { writeEof := some (.other 1) } none none after.deeds)
      (fun error after =>
        Delivered { writeEof := some (.other 1) } none (some error) after.deeds)
      { measurement := none } := by
  intro ends
  have closed : Ends (pumpStream { writeEof := some (.other 1) })
      (fun _ after => after.deeds.count .closed = 1)
      (fun _ after => after.deeds.count .closed = 1) { measurement := none } :=
    ends.mono (fun _ _ delivered => delivered.closed) fun _ _ delivered => delivered.closed
  have once := ends_left_iff.mp closed
  revert once
  decide

end Cuprum.Relay
