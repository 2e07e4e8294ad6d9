import Cuprum.StageStreams.Spawned

namespace Cuprum.StageStreams

open Cuprum.Capture (CaptureStreamName)
open Cuprum.Compaction

variable {Task Handle Error : Type}

@[simp] theorem zipStrict_map {α β : Type} (first : List α) (f : α → β) :
    zipStrict first (first.map f) = (.ok (first.zip (first.map f)) : Except (Raised Error) _) :=
  if_pos (List.length_map f).symm

theorem mapM_ok {α β ε : Type} {f : α → Except ε β} {g : α → β} {inputs : List α}
    (each : ∀ input ∈ inputs, f input = .ok (g input)) :
    inputs.mapM f = .ok (inputs.map g) := by
  induction inputs with
  | nil => rfl
  | cons input inputs induction =>
      obtain ⟨first, others⟩ := List.forall_mem_cons.mp each
      rw [List.mapM_cons, first, induction others]
      rfl

/-- What a stream with a reader comes to: what the reader returns, or else the empty value
of the policy of its own stream. -/
def owed (context : DrainContext Error) (readers : Readers Task Handle Error)
    (stream : CaptureStreamName) (task : Task) : CapturedDrain Handle :=
  match readers.ended (!context.capturing && context.discardOnCancel) task with
  | .returned drain => drain
  | .raised _ => match stream with
      | .stdout => emptyCaptureFor context.captures.1 .stdout context.captureBytes
      | .stderr => emptyCaptureFor context.captures.2 .stderr context.captureBytes

theorem decodeConsumerResult_ended (context : DrainContext Error)
    (readers : Readers Task Handle Error) (stream : CaptureStreamName) (task : Task) :
    decodeConsumerResult
        (some (readers.ended (!context.capturing && context.discardOnCancel) task)) stream context =
      owed context readers stream task := by
  unfold owed decodeConsumerResult
  cases readers.ended (!context.capturing && context.discardOnCancel) task with
  | returned drain => rfl
  | raised error => cases stream <;> rfl

/-- What has been observed of a reader is what the reader returned. -/
def Own (context : DrainContext Error) (readers : Readers Task Handle Error)
    (task : Option Task) (observed : Option (CapturedDrain Handle)) : Prop :=
  ∀ drain ∈ observed, ∃ reader, task = some reader ∧
    readers.ended (!context.capturing && context.discardOnCancel) reader = .returned drain

theorem Readers.ended_of_observed {readers : Readers Task Handle Error} {task : Task}
    {outcome : Outcome Handle Error} (observed : readers.observed task = some outcome)
    (discarding : Bool) : readers.ended discarding task = outcome := by
  rw [Readers.ended, readers.stays _ _ observed, Option.getD_some]

def Outcome.drain : Outcome Handle Error → Option (CapturedDrain Handle)
  | .returned drain => some drain
  | .raised _ => none

/-- The slots before `start` are left as they are; the induction is on the tasks that are
left to be stored. -/
theorem foldlM_storeObserved {byTask : Task → Option (Outcome Handle Error)}
    {tasks : List (Option Task)} {before stored : List (Option (CapturedDrain Handle))}
    (ok : (held before.length tasks).foldlM (storeObserved byTask)
      (before ++ List.replicate tasks.length none) = .ok stored) :
    stored = before ++ tasks.map fun task => (task.bind byTask).bind Outcome.drain := by
  induction tasks generalizing before with
  | nil =>
      cases ok
      rfl
  | cons task tasks induction =>
      have next : ∀ observed : Option (CapturedDrain Handle),
          (held (before.length + 1) tasks).foldlM (storeObserved byTask)
              (before ++ observed :: List.replicate tasks.length none) = .ok stored →
            stored = before ++ observed ::
              tasks.map fun task => (task.bind byTask).bind Outcome.drain := by
        intro observed stored
        have shifted := @induction (before ++ [observed])
        simp only [List.length_append, List.length_singleton, List.append_assoc,
          List.singleton_append] at shifted
        exact shifted stored
      cases task with
      | none => exact next none ok
      | some task =>
          rw [held, List.foldlM_cons] at ok
          cases found : byTask task with
          | none =>
              have here : storeObserved byTask (before ++ List.replicate (tasks.length + 1) none)
                  (before.length, task) =
                .ok (before ++ none :: List.replicate tasks.length none) := by
                simp [storeObserved, found, List.replicate_succ]
              rw [List.length_cons, here] at ok
              simpa [found] using next none ok
          | some outcome =>
              cases outcome with
              | raised error =>
                  simp [storeObserved, found, bind, Except.bind] at ok
              | returned drain =>
                  have here : storeObserved byTask
                      (before ++ List.replicate (tasks.length + 1) none) (before.length, task) =
                    .ok (before ++ some drain :: List.replicate tasks.length none) := by
                    simp [storeObserved, found, List.replicate_succ]
                  rw [List.length_cons, here] at ok
                  simpa [found, Outcome.drain] using next (some drain) ok

variable [DecidableEq Task]

theorem boundedPayloads_ok {tasks : List (Option Task)} {done : List Task}
    {readers : Readers Task Handle Error} {drains : List (Option (CapturedDrain Handle))}
    {finished : Bool} (ok : boundedPayloads tasks done readers = .ok (drains, finished)) :
    drains = tasks.map fun task => task.bind fun task =>
      if task ∈ done then (readers.ended false task).drain else none := by
  unfold boundedPayloads at ok
  dsimp only at ok
  split at ok
  next absent =>
    cases ok
    have none_held : tasks.reduceOption = [] := by
      rw [← map_snd_held 0, List.isEmpty_iff.mp absent, List.map_nil]
    refine (List.eq_replicate_iff.mpr ⟨List.length_map _, ?_⟩).symm
    intro observed member
    obtain ⟨task, among, rfl⟩ := List.mem_map.mp member
    cases task with
    | none => rfl
    | some task =>
        have present := List.reduceOption_mem_iff.mpr among
        rw [none_held] at present
        cases present
  next =>
    have byTask : ∀ task, dict (done.zip (done.map (readers.ended false))) task =
        if task ∈ done then some (readers.ended false task) else none :=
      dict_zip_map done _
    simp only [gather, zipStrict_map, bind, Except.bind] at ok
    split at ok
    · cases ok
    next stored found =>
      cases ok
      have whole := @foldlM_storeObserved _ _ _ _ tasks [] _ found
      rw [whole, List.nil_append]
      refine List.map_congr_left fun task _ => ?_
      cases task with
      | none => rfl
      | some task =>
          rw [Option.bind_some, Option.bind_some, byTask]
          split <;> rfl

/-- How the readers stand when settlement begins: observed under the deadline, or not
observed at all because the run has expired. -/
inductive Gathered (spawn : PipelineSpawnResult Task) (readers : Readers Task Handle Error) :
    PipelineOutputGather Task Handle → Prop
  | observed (done : List Task) (waited : ∀ task ∈ done, (readers.observed task).isSome = true)
      (gathered : PipelineOutputGather Task Handle)
      (ok : gatherPipelineOutputs spawn done readers =
        (.ok gathered : Except (Raised Error) _)) : Gathered spawn readers gathered
  | unobserved : Gathered spawn readers (unobservedPipelineOutputs spawn)

theorem Gathered.own {spawn : PipelineSpawnResult Task} {readers : Readers Task Handle Error}
    {gathered : PipelineOutputGather Task Handle} (context : DrainContext Error)
    (route : Gathered spawn readers gathered) :
    gathered.tasks = pipelineOutputTasks spawn ∧
      List.Forall₂ (Own context readers) gathered.tasks gathered.drains := by
  cases route with
  | observed done waited gathered ok =>
      unfold gatherPipelineOutputs at ok
      cases bounded : boundedPayloads (pipelineOutputTasks spawn) done readers with
      | error error => simp [bounded, bind, Except.bind] at ok
      | ok found =>
          obtain ⟨drains, finished⟩ := found
          simp only [bounded, bind, Except.bind, pure, Except.pure, Except.ok.injEq] at ok
          subst ok
          refine ⟨rfl, ?_⟩
          rw [boundedPayloads_ok bounded, List.forall₂_map_right_iff, List.forall₂_same]
          intro task _ drain here
          cases task with
          | none => cases here
          | some task =>
              rw [Option.bind_some, Option.mem_def] at here
              split at here
              next ended =>
                obtain ⟨outcome, observed⟩ := Option.isSome_iff_exists.mp (waited task ended)
                rw [Readers.ended_of_observed observed] at here
                refine ⟨task, rfl, ?_⟩
                rw [Readers.ended_of_observed observed]
                cases outcome with
                | returned other =>
                    cases here
                    rfl
                | raised error => cases here
              next => cases here
  | unobserved =>
      refine ⟨rfl, ?_⟩
      change List.Forall₂ _ (pipelineOutputTasks spawn) (List.replicate _ none)
      rw [← List.map_const', List.forall₂_map_right_iff, List.forall₂_same]
      intro task _ drain here
      cases here

theorem forall₂_getElem? {α β : Type} {R : α → β → Prop} {first : List α} {second : List β}
    (related : List.Forall₂ R first second) {index : Nat} {value : α}
    (here : first[index]? = some value) :
    ∃ other, second[index]? = some other ∧ R value other := by
  induction related generalizing index with
  | nil => simp at here
  | cons pair related induction =>
      cases index with
      | zero =>
          obtain rfl : _ = value := by simpa using here
          exact ⟨_, rfl, pair⟩
      | succ index => exact induction here

omit [DecidableEq Task] in
/-- A slot is settled from its own reader, whatever the other slots hold. -/
theorem slotPayload_own {slots : SlotContext Task Handle Error}
    {readers : Readers Task Handle Error}
    (own : List.Forall₂ (Own slots.context readers) slots.tasks slots.payloads)
    (byTask : ∀ task, some task ∈ slots.tasks → slots.byTask task =
      some (readers.ended (!slots.context.capturing && slots.context.discardOnCancel) task))
    {index : Nat} {task : Option Task} (here : slots.tasks[index]? = some task) :
    slotPayload index task slots =
      .ok (task.map (owed slots.context readers (slotStream index slots.tasks))) := by
  obtain ⟨observed, found, belongs⟩ := forall₂_getElem? own here
  unfold slotPayload
  rw [found]
  cases task with
  | none =>
      cases observed with
      | none => rfl
      | some drain =>
          obtain ⟨reader, absent, _⟩ := belongs drain rfl
          cases absent
  | some task =>
      cases observed with
      | none =>
          have settled := byTask task (List.mem_of_getElem? here)
          simp only [settled, decodeConsumerResult_ended, Option.map_some]
      | some drain =>
          obtain ⟨reader, same, returned⟩ := belongs drain rfl
          cases same
          simp only [Option.map_some, owed, returned]

omit [DecidableEq Task] in
/-- Slots that are laid out as the pipeline's output tasks are settle to the stages' stderr
and the last stage's stdout. -/
theorem pipelinePayloads_own {slots : SlotContext Task Handle Error}
    {readers : Readers Task Handle Error} {spawn : PipelineSpawnResult Task}
    (laidOut : slots.tasks = pipelineOutputTasks spawn)
    (own : List.Forall₂ (Own slots.context readers) slots.tasks slots.payloads)
    (byTask : ∀ task, some task ∈ slots.tasks → slots.byTask task =
      some (readers.ended (!slots.context.capturing && slots.context.discardOnCancel) task)) :
    pipelinePayloads slots =
      .ok (spawn.stderrTasks.map (Option.map (owed slots.context readers .stderr)),
        spawn.stdoutTask.map (owed slots.context readers .stdout)) := by
  have decoded : slots.tasks.zipIdx.mapM (fun slot => slotPayload slot.2 slot.1 slots) =
      .ok (slots.tasks.zipIdx.map fun slot =>
        slot.1.map (owed slots.context readers (slotStream slot.2 slots.tasks))) :=
    mapM_ok fun slot member =>
      slotPayload_own own byTask (List.mem_zipIdx_iff_getElem?.mp member)
  have split : (slots.tasks.zipIdx.map fun slot =>
        slot.1.map (owed slots.context readers (slotStream slot.2 slots.tasks))) =
      spawn.stderrTasks.map (Option.map (owed slots.context readers .stderr)) ++
        [spawn.stdoutTask.map (owed slots.context readers .stdout)] := by
    rw [laidOut, pipelineOutputTasks, List.zipIdx_append, List.map_append]
    congr 1
    · have inner : ∀ slot ∈ spawn.stderrTasks.zipIdx,
          slotStream slot.2 (spawn.stderrTasks ++ [spawn.stdoutTask]) = .stderr := by
        intro slot member
        have below : slot.2 < spawn.stderrTasks.length := (List.mem_zipIdx' member).1
        unfold slotStream
        rw [List.length_append, List.length_singleton, Nat.add_sub_cancel]
        exact if_neg (Nat.ne_of_lt below)
      calc
        _ = spawn.stderrTasks.zipIdx.map
            (Option.map (owed slots.context readers .stderr) ∘ Prod.fst) :=
          List.map_congr_left fun slot member => by rw [inner slot member]; rfl
        _ = _ := by rw [← List.map_map, List.zipIdx_map_fst]
    · simp [slotStream]
  unfold pipelinePayloads
  rw [decoded, split]
  simp [bind, Except.bind, pure, Except.pure]

/-- The report of a grace that has been owed and has expired. -/
def graceReport (gathered : PipelineOutputGather Task Handle) (context : DrainContext Error)
    (readers : Readers Task Handle Error) (debug : Nat → Option (Raised Error)) :
    Except (Raised Error) Unit :=
  if owesEofGrace gathered.tasks.reduceOption context (!gathered.finished) then
    reportEofGraceExpiry
      (gathered.tasks.reduceOption.countP fun task => (readers.graced task).isNone) context debug
  else .ok ()

/-- Nothing raises in a settlement but the report, which is made when readers are left
after the grace they were owed. -/
theorem settleGatheredOutputs_eq {spawn : PipelineSpawnResult Task}
    {readers : Readers Task Handle Error} {gathered : PipelineOutputGather Task Handle}
    (route : Gathered spawn readers gathered) (context : DrainContext Error)
    (debug : Nat → Option (Raised Error)) :
    settleGatheredOutputs gathered context readers debug =
      (graceReport gathered context readers debug).map fun _ =>
        (spawn.stderrTasks.map (Option.map (owed context readers .stderr)),
          spawn.stdoutTask.map (owed context readers .stdout)) := by
  obtain ⟨laidOut, own⟩ := route.own context
  have settled : ∀ task, some task ∈ gathered.tasks →
      dict (gathered.tasks.reduceOption.zip (gathered.tasks.reduceOption.map
          (readers.ended (!context.capturing && context.discardOnCancel)))) task =
        some (readers.ended (!context.capturing && context.discardOnCancel) task) := by
    intro task among
    rw [dict_zip_map, if_pos (List.reduceOption_mem_iff.mpr among)]
  have payloads := @pipelinePayloads_own _ _ _ {
    payloads := gathered.drains
    tasks := gathered.tasks
    byTask := _
    context := context } _ _ laidOut own settled
  have discarding : (if context.capturing = true then false else context.discardOnCancel) =
      (!context.capturing && context.discardOnCancel) := by
    cases context.capturing <;> rfl
  unfold settleGatheredOutputs settlePipelineOutputs graceReport
  simp only [discarding, settleConsumers, gather, zipStrict_map]
  cases owes : owesEofGrace gathered.tasks.reduceOption context (!gathered.finished) with
  | false => exact payloads
  | true =>
      have present : gathered.tasks.reduceOption.isEmpty = false := by
        simp only [owesEofGrace, Bool.and_eq_true, Bool.not_eq_true'] at owes
        exact owes.2
      rw [if_pos rfl, if_pos rfl]
      simp only [awaitPipelineEofGrace, awaitAny, present]
      cases reportEofGraceExpiry
          (gathered.tasks.reduceOption.countP fun task => (readers.graced task).isNone)
          context debug with
      | error error => rfl
      | ok _ => exact payloads

/-- The only thing a settlement raises. -/
structure ReportRaised (gathered : PipelineOutputGather Task Handle)
    (context : DrainContext Error) (readers : Readers Task Handle Error)
    (debug : Nat → Option (Raised Error)) (error : Raised Error) : Prop where
  expired : gathered.finished = false
  capturing : context.capturing = true
  pending : ∃ task, some task ∈ gathered.tasks ∧ readers.graced task = none
  origin : ∃ pendingReaders, debug pendingReaders = some error ∨
    ∃ emit cause, context.observation = some emit ∧ error = .exiting cause ∧
      emit context.pid pendingReaders = some error

omit [DecidableEq Task] in
theorem graceReport_error {gathered : PipelineOutputGather Task Handle}
    {context : DrainContext Error} {readers : Readers Task Handle Error}
    {debug : Nat → Option (Raised Error)} {error : Raised Error}
    (raised : graceReport gathered context readers debug = .error error) :
    ReportRaised gathered context readers debug error := by
  unfold graceReport at raised
  split at raised
  next owes =>
    simp only [owesEofGrace, Bool.and_eq_true, Bool.not_eq_true'] at owes
    obtain ⟨⟨expired, capturing⟩, _⟩ := owes
    unfold reportEofGraceExpiry at raised
    split at raised
    · cases raised
    next left =>
      obtain ⟨task, among, pending⟩ := List.countP_pos_iff.mp (Nat.pos_of_ne_zero left)
      refine ⟨expired, capturing, ⟨task, List.reduceOption_mem_iff.mp among, by simpa using pending⟩,
        gathered.tasks.reduceOption.countP fun task => (readers.graced task).isNone, ?_⟩
      split at raised
      next logged =>
        cases raised
        exact .inl logged
      next =>
        split at raised
        · cases raised
        next emit observed =>
          unfold safeEmit at raised
          split at raised
          next cause emitted =>
            cases raised
            exact .inr ⟨emit, cause, observed, rfl, emitted⟩
          · cases raised
  next => cases raised

/-- Each stream's result stands at its own stage, and only the last stage has a stdout. -/
structure InPlace (spawn : PipelineSpawnResult Task) (context : DrainContext Error)
    (readers : Readers Task Handle Error) (gathered : PipelineOutputGather Task Handle)
    (stderrByStage : List (Option (CapturedDrain Handle)))
    (finalStdout : Option (CapturedDrain Handle)) : Prop where
  stderr : stderrByStage = spawn.stderrTasks.map (Option.map (owed context readers .stderr))
  stdout : finalStdout = spawn.stdoutTask.map (owed context readers .stdout)
  kept : ∀ (index : Nat) drain, gathered.drains[index]? = some (some drain) →
    (stderrByStage ++ [finalStdout])[index]? = some (some drain)
  stages : ∀ (idx : Nat) task, spawn.stderrTasks[idx]? = some task →
    stageDrains spawn.stderrTasks.length idx stderrByStage finalStdout =
      some (if idx = spawn.stderrTasks.length - 1 then
          spawn.stdoutTask.map (owed context readers .stdout) else none,
        task.map (owed context readers .stderr))
  /-- A stage of a pipeline reports what its own readers come to, and of a stream that was
  left without one what an empty capture under its policy would report. -/
  reports : ∀ config stages last pid observation,
    spawn = spawnPipeline config (stages ++ [last]) →
      context = drainContext config pid observation →
        ∀ (idx : Nat) stage, (stages ++ [last])[idx]? = some stage →
          ∃ stdout stderr,
            stageDrains spawn.stderrTasks.length idx stderrByStage finalStdout =
                some (stdout, stderr) ∧
              streamParts stderr = streamParts (some (if config.consumesStderr then
                  owed context readers .stderr stage.1
                else emptyCaptureFor config.captureStderr .stderr config.captureBytes)) ∧
              (idx ≠ stages.length → stdout = none) ∧
              (idx = stages.length →
                streamParts stdout = streamParts (some (if config.consumesStdout then
                    owed context readers .stdout stage.2
                  else emptyCaptureFor config.captureStdout .stdout config.captureBytes)))

omit [DecidableEq Task] in
theorem streamParts_of_unconsumed {captureBytes : Bool} {stream : CaptureStreamName}
    {policy : Option CapturePolicy} {consumed : Bool} (reader : Task)
    (come : Task → CapturedDrain Handle)
    (unconsumed : consumed = false → policy = none) :
    streamParts ((if consumed then some reader else none).map come) =
      streamParts (some (if consumed then come reader
        else emptyCaptureFor policy stream captureBytes)) := by
  cases consumed with
  | true => rfl
  | false =>
      rw [unconsumed rfl]
      rfl

theorem Gathered.inPlace {spawn : PipelineSpawnResult Task}
    {readers : Readers Task Handle Error} {gathered : PipelineOutputGather Task Handle}
    (route : Gathered spawn readers gathered) (context : DrainContext Error) :
    InPlace spawn context readers gathered
      (spawn.stderrTasks.map (Option.map (owed context readers .stderr)))
      (spawn.stdoutTask.map (owed context readers .stdout)) where
  stderr := rfl
  stdout := rfl
  kept := by
    intro index drain observed
    obtain ⟨laidOut, own⟩ := route.own context
    obtain ⟨task, here, belongs⟩ := forall₂_getElem? own.flip observed
    obtain ⟨reader, rfl, returned⟩ := belongs drain rfl
    rw [laidOut, pipelineOutputTasks] at here
    have whole : owed context readers .stderr reader = drain ∧
        owed context readers .stdout reader = drain := by
      simp only [owed, returned, and_self]
    rcases Nat.lt_or_ge index spawn.stderrTasks.length with inside | final
    · rw [List.getElem?_append_left inside] at here
      rw [List.getElem?_append_left (by rwa [List.length_map]), List.getElem?_map, here]
      simp [whole.1]
    · rw [List.getElem?_append_right final] at here
      rw [List.getElem?_append_right (by rwa [List.length_map]), List.length_map]
      cases last : index - spawn.stderrTasks.length with
      | zero =>
          rw [last] at here
          obtain same : spawn.stdoutTask = some reader := by simpa using here
          simp [same, whole.2]
      | succ beyond =>
          rw [last] at here
          simp at here
  stages := by
    intro idx task here
    simp only [stageDrains, List.getElem?_map, here, Option.map_some]
  reports := by
    rintro config stages last pid observation rfl rfl idx stage here
    have count : (spawnPipeline config (stages ++ [last])).stderrTasks.length =
        stages.length + 1 := by
      rw [stderrTasks_spawn, List.length_map, List.length_append, List.length_singleton]
    have slot : (spawnPipeline config (stages ++ [last])).stderrTasks[idx]? =
        some (if config.consumesStderr then some stage.1 else none) := by
      rw [stderrTasks_spawn, List.getElem?_map, here, Option.map_some]
    refine ⟨_, _, by simp only [stageDrains, List.getElem?_map, slot, Option.map_some, count,
      Nat.add_sub_cancel]; rfl, ?_, ?_, ?_⟩
    · exact streamParts_of_unconsumed stage.1 _ captureStderr_of_unconsumed
    · intro inner
      exact if_neg inner
    · intro final
      obtain rfl : last = stage := by simpa [final] using here
      rw [if_pos final, stdoutTask_spawn]
      exact streamParts_of_unconsumed last.2 _ captureStdout_of_unconsumed

/-- However the tasks end and whichever are absent, a settlement returns each result in its
place, or its report of readers that outlast their grace has raised. -/
theorem settlement_in_place {spawn : PipelineSpawnResult Task}
    {readers : Readers Task Handle Error} {gathered : PipelineOutputGather Task Handle}
    (route : Gathered spawn readers gathered) (context : DrainContext Error)
    (debug : Nat → Option (Raised Error)) :
    (∃ stderrByStage finalStdout,
      settleGatheredOutputs gathered context readers debug = .ok (stderrByStage, finalStdout) ∧
        InPlace spawn context readers gathered stderrByStage finalStdout) ∨
      ∃ error, settleGatheredOutputs gathered context readers debug = .error error ∧
        ReportRaised gathered context readers debug error := by
  rw [settleGatheredOutputs_eq route context debug]
  cases report : graceReport gathered context readers debug with
  | error error => exact .inr ⟨error, rfl, graceReport_error report⟩
  | ok _ => exact .inl ⟨_, _, rfl, route.inPlace context⟩

/-- Of two stages the first has a reader that has ended and the second has none for its
stderr, and the reader of the last stdout is still pending. -/
def halfRead : Readers Bool Unit Unit where
  observed := fun task => if task then some (.returned { payload := some (.bytes [1]) }) else none
  graced := fun task => if task then some (.returned { payload := some (.bytes [1]) }) else none
  answer := fun _ _ => .raised .cancelledError
  stays := fun _ _ observed => observed

theorem settlement_in_place_halfRead :
    (∃ stderrByStage finalStdout,
      settleGatheredOutputs ⟨[some true, none, some false],
          [some { payload := some (.bytes [1]) }, none, none], false⟩
          { captures := (some .full, none) } halfRead (fun _ => none) =
        .ok (stderrByStage, finalStdout) ∧
        InPlace ⟨[some true, none], some false⟩ { captures := (some .full, none) } halfRead
          ⟨[some true, none, some false], [some { payload := some (.bytes [1]) }, none, none],
            false⟩ stderrByStage finalStdout) ∨
      ∃ error, settleGatheredOutputs ⟨[some true, none, some false],
          [some { payload := some (.bytes [1]) }, none, none], false⟩
          { captures := (some .full, none) } halfRead (fun _ => none) = .error error ∧
        ReportRaised ⟨[some true, none, some false],
          [some { payload := some (.bytes [1]) }, none, none], false⟩
          { captures := (some .full, none) } halfRead (fun _ => none) error :=
  settlement_in_place (.observed [true] (by simp [halfRead]) _ rfl) _ _

/-- The policy says full capture, which implies an empty text; the slot of the stream without
a reader holds nothing. -/
theorem absent_slot_not_empty_capture :
    settleGatheredOutputs (unobservedPipelineOutputs ⟨[none], none⟩)
        { captures := (some .full, some .full) } halfRead (fun _ => none) = .ok ([none], none) ∧
      (none : Option (CapturedDrain Unit)) ≠ some (emptyCaptureFor (some .full) .stderr false) :=
  ⟨rfl, nofun⟩

end Cuprum.StageStreams
