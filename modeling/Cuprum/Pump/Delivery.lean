import Cuprum.Pump.Interruption

namespace Cuprum.Pump

theorem pumpStreamWithIo_faithful (reserve : Nat → Bool) (size : Streams.BufferSize)
    (reads : List ReadReply) (writes : List WriteReply)
    (granted : reserve size.value = true) :
    Faithful .start reads writes (pumpStreamWithIo reserve size reads writes) := by
  simp only [pumpStreamWithIo, Streams.allocateBuffer, granted, if_true]
  apply pumpLoop_faithful
  · rw [List.length_replicate]
    exact size.capped
  · exact Nat.zero_le _

/-- Only the last call of a log can decide how the run ends. -/
theorem last_of_verdict {log before after : List Event} {event : Event}
    {verdict : Except PumpError Unit} (ordered : log.Pairwise Event.Allows)
    (split : log = before ++ event :: after) (decides : event.verdict = some verdict) :
    after = [] ∧ conclusion log = some verdict := by
  subst split
  cases after with
  | nil =>
      refine ⟨rfl, ?_⟩
      simp [conclusion, decides]
  | cons next after =>
      have tail := (List.pairwise_append.mp ordered).2.1
      have undecided := (List.rel_of_pairwise_cons tail (.head _)).1
      cases decides.symm.trans undecided

theorem onlyReads_of_breaksPipe {log before after : List Event} {event : Event}
    (ordered : log.Pairwise Event.Allows) (split : log = before ++ event :: after)
    (breaks : event.breaksPipe = true) : OnlyReads after := by
  subst split
  have tail := (List.pairwise_append.mp ordered).2.1
  exact fun later member => (List.rel_of_pairwise_cons tail member).2 breaks

/-- What a pump run owes its two sides, `log` being the calls it made. -/
structure DeliversPrefix (reads : List ReadReply) (writes : List WriteReply)
    (run : Pumped) : Prop where
  /-- The log holds exactly the answers that were asked for, in order. -/
  consumedReads : run.log.filterMap Event.readReply ++ run.reads = reads
  consumedWrites : run.log.filterMap Event.writeReply ++ run.writes = writes
  delivered : accepted run.log <+: received run.log
  /-- Only a broken pipe keeps back what a pump that succeeds has read. -/
  whole : ∀ total, run.outcome = .returned total →
    (∀ event ∈ run.log, event.breaksPipe = false) → accepted run.log = received run.log
  /-- The total is a saturating `u64`. -/
  total : ∀ total, run.outcome = .returned total →
    total = min (accepted run.log).length u64Max
  /-- After a broken pipe the reader is only drained, to the end of the input or
  to its own error. -/
  drains : ∀ before event after, run.log = before ++ event :: after →
    event.breaksPipe = true →
    OnlyReads after ∧
      ((∃ total, run.outcome = .returned total) ∧ conclusion run.log = some (.ok ()) ∨
        (∃ error, run.outcome = .failed error ∧
          conclusion run.log = some (.error error)) ∨
        run.outcome = .waiting ∧ run.reads = [])
  stops : ∀ before event after error, run.log = before ++ event :: after →
    event.verdict = some (.error error) → after = [] ∧ run.outcome = .failed error
  finishes : ∀ before event after, run.log = before ++ event :: after →
    event.verdict = some (.ok ()) → after = [] ∧ ∃ total, run.outcome = .returned total
  waits : run.outcome = .waiting → run.reads = [] ∨ run.writes = []

theorem Faithful.deliversPrefix {reads : List ReadReply} {writes : List WriteReply}
    {run : Pumped} (faithful : Faithful .start reads writes run) :
    DeliversPrefix reads writes run := by
  refine
    { consumedReads := faithful.consumedReads
      consumedWrites := faithful.consumedWrites
      delivered := faithful.delivered
      whole := fun total returned => faithful.whole total returned rfl
      total := fun total returned => ?_
      drains := fun before event after split breaks =>
        ⟨onlyReads_of_breaksPipe faithful.ordered split breaks, ?_⟩
      stops := fun before event after error split decides => ?_
      finishes := fun before event after split decides => ?_
      waits := fun waiting =>
        (faithful.waiting waiting).2.imp_right fun blocked => blocked.2.1 }
  · rw [(faithful.returned total returned).1]
    simp [saturatingAdd, PumpState.start]
  · cases ending : run.outcome with
    | returned total => exact .inl ⟨⟨total, rfl⟩, (faithful.returned total ending).2⟩
    | failed error => exact .inr (.inl ⟨error, rfl, faithful.failed error ending⟩)
    | waiting =>
        refine .inr (.inr ⟨rfl, (faithful.waiting ending).2.resolve_right ?_⟩)
        rintro ⟨-, -, passing⟩
        have unbroken := (passing event (by simp [split])).unbroken
        cases unbroken.symm.trans breaks
  · obtain ⟨last, concludes⟩ := last_of_verdict faithful.ordered split decides
    refine ⟨last, ?_⟩
    cases ending : run.outcome with
    | returned total => cases concludes.symm.trans (faithful.returned total ending).2
    | failed other => cases concludes.symm.trans (faithful.failed other ending); rfl
    | waiting => cases concludes.symm.trans (faithful.waiting ending).1
  · obtain ⟨last, concludes⟩ := last_of_verdict faithful.ordered split decides
    refine ⟨last, ?_⟩
    cases ending : run.outcome with
    | returned total => exact ⟨total, rfl⟩
    | failed other => cases concludes.symm.trans (faithful.failed other ending)
    | waiting => cases concludes.symm.trans (faithful.waiting ending).1

theorem DeliversPrefix.nothing (reads : List ReadReply) (writes : List WriteReply)
    (error : PumpError) : DeliversPrefix reads writes ⟨.failed error, [], reads, writes⟩ := by
  have absurd {before after : List Event} {event : Event} :
      [] ≠ before ++ event :: after := by simp
  exact
    { consumedReads := rfl
      consumedWrites := rfl
      delivered := List.nil_prefix
      whole := fun total wrong => by cases wrong
      total := fun total wrong => by cases wrong
      drains := fun before event after split => (absurd split).elim
      stops := fun before event after error split => (absurd split).elim
      finishes := fun before event after split => (absurd split).elim
      waits := fun wrong => by cases wrong }

def oneByte : Streams.BufferSize := ⟨1, by decide, by decide⟩

/-- A pump of single bytes that nothing disturbs. -/
def steadyReads (count : Nat) : List ReadReply :=
  List.replicate count (.ok [0]) ++ [.ok []]

def steadyWrites (count : Nat) : List WriteReply := List.replicate count (.ok 1)

theorem writeAllUnixWith_oneByte (writes : List WriteReply) :
    writeAllUnixWith [0] 0 (.ok 1 :: writes) =
      ⟨.returned (.complete 1), [.write [0] (.ok 1)], writes⟩ := by
  simp only [writeAllUnixWith]
  exact congrArg (Stretch.after · _) (writeAllUnixWith_empty 1 writes)

theorem pumpLoop_oneByte (total : Nat) (reads : List ReadReply)
    (writes : List WriteReply) :
    pumpLoop [0] ⟨total, true⟩ (.ok [0] :: reads) (.ok 1 :: writes) =
      (pumpLoop [0] ⟨saturatingAdd total 1, true⟩ reads writes).afterAll
        [.read 1 (.ok [0]), .write [0] (.ok 1)] := by
  have once : writeChunk (overwrite [0] [0]) 1 (.ok 1 :: writes) =
      ⟨.returned (.complete 1), [.write [0] (.ok 1)], writes⟩ := by
    apply (@writeChunk_overwrite [0] [0] (Nat.le_refl 1) _).trans
    rw [classifyWriteWith, writeAllUnixWith_oneByte]
    rfl
  have advanced : advance ⟨total, true⟩ 1 (writeChunk (overwrite [0] [0]) 1)
      (.ok 1 :: writes) =
      ⟨.returned (⟨saturatingAdd total 1, true⟩, .continue),
        [.write [0] (.ok 1)], writes⟩ := by
    simp only [advance, once]
    rfl
  rw [pumpLoop_eq]
  simp only [readRawFdWith, syscallResult, checkedCount, List.length_singleton,
    Nat.le_refl, if_true, advanced]
  rfl

theorem pumpLoop_steady (count total : Nat) :
    let run := pumpLoop [0] ⟨total, true⟩ (steadyReads count) (steadyWrites count)
    (∃ total, run.outcome = .returned total) ∧ (accepted run.log).length = count := by
  induction count generalizing total with
  | zero =>
      rw [pumpLoop_eq]
      exact ⟨⟨total, rfl⟩, rfl⟩
  | succ count induction =>
      obtain ⟨returned, taken⟩ := induction (saturatingAdd total 1)
      have first := pumpLoop_oneByte total (steadyReads count) (steadyWrites count)
      refine ⟨?_, ?_⟩
      · obtain ⟨result, returned⟩ := returned
        exact ⟨result, (congrArg Pumped.outcome first).trans returned⟩
      · refine (congrArg (fun run => (accepted run.log).length) first).trans ?_
        rw [Pumped.afterAll_log, accepted_append, List.length_append, taken]
        exact Nat.add_comm 1 count

theorem pumpStreamWithIo_steady (count : Nat) :
    let run := pumpStreamWithIo (fun _ => true) oneByte (steadyReads count)
      (steadyWrites count)
    run.outcome = .returned (min count u64Max) ∧ (accepted run.log).length = count := by
  intro run
  obtain ⟨⟨total, returned⟩, taken⟩ := pumpLoop_steady count 0
  have faithful := pumpStreamWithIo_faithful (fun _ => true) oneByte
    (steadyReads count) (steadyWrites count) rfl
  refine ⟨?_, taken⟩
  have counted := faithful.deliversPrefix.total total returned
  have taken : (accepted run.log).length = count := taken
  rw [taken] at counted
  exact returned.trans (congrArg Outcome.returned counted)

end Cuprum.Pump
