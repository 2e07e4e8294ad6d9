import Cuprum.Pipeline.Wait

namespace Cuprum.Pipeline

variable {τ : Type} {run after : WaitRun τ}

namespace WaitRun

def Failed (run : WaitRun τ) (idx : Nat) : Prop :=
  ∃ code, run.results idx = some code ∧ code ≠ 0

/-- The stages a fail-fast of `failureIndex` selects when the stages seen to have
completed are `seen`. -/
def targets (run : WaitRun τ) (failureIndex : Nat) (seen : List Nat) : List Nat :=
  stagesToTerminate failureIndex
    ((List.range run.stages).map fun idx => decide (idx ∈ seen))
    (run.policy.ownershipOf run.stages)

/-- The failure that was latched is the lowest of the first batch with one, and
the other stages were to be terminated where the source says so. -/
structure Latched (run : WaitRun τ) (failureIndex : Nat)
    (before : List (List Nat)) (batch : List Nat) (later : List (List Nat)) : Prop where
  split : run.history.batches = before ++ batch :: later
  succeeded : ∀ idx ∈ before.flatten, run.results idx = some 0
  member : failureIndex ∈ batch
  handled : failureIndex ∈ run.history.processed
  failed : run.Failed failureIndex
  lowest : ∀ idx ∈ batch, run.Failed idx → failureIndex ≤ idx
  terminations :
    run.history.terminations =
        (if failureIndex + 1 ≠ run.stages ∧
            run.targets failureIndex (before.flatten ++ batch) ≠ [] then
          [⟨failureIndex, run.targets failureIndex (before.flatten ++ batch)⟩]
        else []) ∨
      run.phase = .raised ∧ run.history.terminations = []

def Latch (run : WaitRun τ) : Prop :=
  match run.state.failureIndex with
  | none =>
      (∀ idx ∈ run.history.processed, run.results idx = some 0) ∧
        run.history.terminations = []
  | some failureIndex => ∃ before batch later, run.Latched failureIndex before batch later

/-- Part of the last batch is still to be processed. -/
def Halfway (run : WaitRun τ) (rest : List Nat) : Prop :=
  ∃ earlier handled, run.history.batches = earlier ++ [handled ++ rest] ∧
    run.history.processed = earlier.flatten ++ handled

def Placed (run : WaitRun τ) : Phase τ → Prop
  | .waiting => run.history.processed = run.history.batches.flatten
  | .processing rest =>
      run.Halfway rest ∧
        (run.state.failureIndex = none →
          ∀ idx, run.done idx = true → idx ∈ run.history.batches.flatten)
  | .terminating rest => run.Halfway rest ∧ run.state.failureIndex ≠ none
  | .returned result =>
      run.history.processed = run.history.batches.flatten ∧ run.pending = [] ∧
        result = run.result
  | .raised => run.history.processed ⊆ run.history.batches.flatten

end WaitRun

/-- The books of the wait: every stage is in one batch or pending, and what was
processed is recorded at its own index. -/
structure Books (run : WaitRun τ) : Prop where
  exitCodesLength : run.state.exitCodes.length = run.stages
  partition : (run.history.batches.flatten ++ run.pending).Perm (List.range run.stages)
  sorted : ∀ batch ∈ run.history.batches, batch.Pairwise (· ≤ ·)
  nonempty : ∀ batch ∈ run.history.batches, batch ≠ []
  bounded : ∀ idx, run.done idx = true → idx < run.stages
  finished : ∀ idx ∈ run.history.batches.flatten, run.done idx = true
  recorded : ∀ idx, idx < run.stages →
    run.state.exitCodes[idx]? =
      some (if idx ∈ run.history.processed then run.results idx else none)

structure Sound (run : WaitRun τ) : Prop extends Books run where
  latch : run.Latch
  placed : run.Placed run.phase

theorem WaitRun.Placed.processed_subset {phase : Phase τ} (placed : run.Placed phase) :
    run.history.processed ⊆ run.history.batches.flatten := by
  cases phase with
  | waiting => exact List.Subset.trans (placed ▸ List.Subset.refl _) (List.Subset.refl _)
  | processing rest | terminating rest =>
      obtain ⟨⟨earlier, handled, split, processed⟩, -⟩ := placed
      rw [split, processed]
      simp
  | returned result => exact placed.1 ▸ List.Subset.refl _
  | raised => exact placed

theorem done_iff {idx : Nat} :
    run.done idx = true ↔ ∃ code, run.results idx = some code :=
  Option.isSome_iff_exists

section Finishing

variable {idx : Nat} {code : Int}

theorem results_finish (fresh : run.results idx = none) {other : Nat}
    (done : run.done other = true) :
    Function.update run.results idx (some code) other = run.results other := by
  apply Function.update_of_ne
  rintro rfl
  simp [WaitRun.done, fresh] at done

theorem done_finish {other : Nat} (done : run.done other = true) :
    WaitRun.done { run with results := Function.update run.results idx (some code) } other =
      true := by
  rcases eq_or_ne other idx with rfl | different
  · simp [WaitRun.done]
  · simpa [WaitRun.done, different] using done

theorem Books.finish (books : Books run) (fresh : run.results idx = none)
    (inside : idx < run.stages)
    (processed : run.history.processed ⊆ run.history.batches.flatten) :
    Books { run with results := Function.update run.results idx (some code) } := by
  refine
    { books with
      bounded := fun other done => ?_
      finished := fun other member => done_finish (books.finished other member)
      recorded := fun other small => ?_ }
  · rcases eq_or_ne other idx with rfl | different
    · exact inside
    · apply books.bounded other
      simpa [WaitRun.done, different] using done
  · rw [books.recorded other small]
    by_cases member : other ∈ run.history.processed
    · have done := books.finished other (processed member)
      simp only [if_pos member, results_finish fresh done]
    · simp only [if_neg member]

theorem WaitRun.Latched.finish {failureIndex : Nat} {before later : List (List Nat)}
    {batch : List Nat} (latched : run.Latched failureIndex before batch later)
    (fresh : run.results idx = none)
    (finished : ∀ other ∈ run.history.batches.flatten, run.done other = true) :
    WaitRun.Latched { run with results := Function.update run.results idx (some code) }
      failureIndex before batch later := by
  have same (other : Nat) (member : other ∈ batch) :
      Function.update run.results idx (some code) other = run.results other := by
    apply results_finish fresh
    apply finished
    rw [latched.split]
    simp [member]
  refine
    { latched with
      succeeded := fun other member => ?_
      failed := ?_
      lowest := fun other member failed => ?_ }
  · have done : run.done other = true := by
      simp [WaitRun.done, latched.succeeded other member]
    exact (results_finish fresh done).trans (latched.succeeded other member)
  · obtain ⟨code', result, nonzero⟩ := latched.failed
    exact ⟨code', (same _ latched.member).trans result, nonzero⟩
  · obtain ⟨code', result, nonzero⟩ := failed
    exact latched.lowest other member ⟨code', (same other member).symm.trans result, nonzero⟩

theorem WaitRun.Latch.finish (latch : run.Latch) (fresh : run.results idx = none)
    (finished : ∀ other ∈ run.history.batches.flatten, run.done other = true) :
    WaitRun.Latch { run with results := Function.update run.results idx (some code) } := by
  unfold WaitRun.Latch at latch ⊢
  cases failure : run.state.failureIndex with
  | none =>
      simp only [failure] at latch ⊢
      refine ⟨fun other member => ?_, latch.2⟩
      have done : run.done other = true := by simp [WaitRun.done, latch.1 other member]
      exact (results_finish fresh done).trans (latch.1 other member)
  | some failureIndex =>
      simp only [failure] at latch ⊢
      obtain ⟨before, batch, later, latched⟩ := latch
      exact ⟨before, batch, later, latched.finish fresh finished⟩

theorem Sound.finish (sound : Sound run) (step : run.finish idx code = some after) :
    Sound after := by
  unfold WaitRun.finish at step
  by_cases allowed : idx < run.stages ∧ run.results idx = none
  · obtain ⟨inside, fresh⟩ := allowed
    have books := @Books.finish _ _ idx code sound.toBooks fresh inside
      sound.placed.processed_subset
    have latch := @WaitRun.Latch.finish _ _ idx code sound.latch fresh sound.finished
    have placed := sound.placed
    cases phase : run.phase with
    | waiting | terminating rest =>
        rw [phase] at placed latch
        simp only [inside, fresh, and_self, if_true, phase, Option.some.injEq] at step
        subst step
        exact { books with latch := latch, placed := placed }
    | processing | returned | raised =>
        simp [inside, fresh, phase] at step
  · simp [allowed] at step

end Finishing

theorem WaitRun.Latch.setPhase (latch : run.Latch) (phase : Phase τ)
    (running : run.phase ≠ .raised) : WaitRun.Latch { run with phase := phase } := by
  unfold WaitRun.Latch at latch ⊢
  cases failure : run.state.failureIndex with
  | none =>
      simp only [failure] at latch ⊢
      exact latch
  | some failureIndex =>
      simp only [failure] at latch ⊢
      obtain ⟨before, batch, later, latched⟩ := latch
      refine ⟨before, batch, later, { latched with terminations := .inl ?_ }⟩
      exact latched.terminations.resolve_right fun raised => running raised.1

theorem Sound.proceedNil (books : Books run) (latch : run.Latch)
    (running : run.phase ≠ .raised)
    (processed : run.history.processed = run.history.batches.flatten) :
    Sound (run.proceed []) := by
  rcases eq_or_ne run.pending [] with pending | pending
  · rw [WaitRun.proceed_nil_of_nil pending]
    exact
      { books with
        latch := latch.setPhase _ running
        placed := ⟨processed, pending, rfl⟩ }
  · rw [WaitRun.proceed_nil_of_ne pending]
    exact { books with latch := latch.setPhase _ running, placed := processed }

theorem Sound.proceed {rest : List Nat} (books : Books run) (latch : run.Latch)
    (running : run.phase ≠ .raised) (halfway : run.Halfway rest)
    (fresh : run.state.failureIndex = none →
      ∀ idx, run.done idx = true → idx ∈ run.history.batches.flatten) :
    Sound (run.proceed rest) := by
  cases rest with
  | cons idx rest =>
      rw [WaitRun.proceed_cons]
      exact { books with latch := latch.setPhase _ running, placed := ⟨halfway, fresh⟩ }
  | nil =>
      apply Sound.proceedNil books latch running
      obtain ⟨earlier, handled, split, processed⟩ := halfway
      simp [split, processed]

theorem Sound.terminated (sound : Sound run) (step : run.terminated = some after) :
    Sound after := by
  unfold WaitRun.terminated at step
  have placed := sound.placed
  cases phase : run.phase with
  | terminating rest =>
      rw [phase] at placed
      simp only [phase, Option.some.injEq] at step
      subst step
      apply Sound.proceed sound.toBooks sound.latch (by simp [phase]) placed.1
      exact fun unlatched => absurd unlatched placed.2
  | waiting | processing | returned | raised => simp [phase] at step

theorem Sound.raise (sound : Sound run) (step : run.raise = some after) :
    Sound after := by
  unfold WaitRun.raise at step
  have processed := sound.placed.processed_subset
  cases phase : run.phase with
  | waiting | processing | terminating =>
      simp only [phase, Option.some.injEq] at step
      subst step
      exact
        { sound.toBooks with
          latch := sound.latch.setPhase _ (by simp [phase])
          placed := processed }
  | returned | raised => simp [phase] at step

/-- A batch that comes later leaves what was latched as it is. -/
theorem WaitRun.Latch.wake (latch : run.Latch) (running : run.phase ≠ .raised)
    (batch pending : List Nat) (phase : Phase τ) :
    WaitRun.Latch
      { run with
        pending := pending
        phase := phase
        history := { run.history with batches := run.history.batches ++ [batch] } } := by
  unfold WaitRun.Latch at latch ⊢
  cases failure : run.state.failureIndex with
  | none =>
      simp only [failure] at latch ⊢
      exact latch
  | some failureIndex =>
      simp only [failure] at latch ⊢
      obtain ⟨before, first, later, latched⟩ := latch
      refine ⟨before, first, later ++ [batch],
        { latched with
          split := by simp [latched.split]
          terminations := .inl ?_ }⟩
      exact latched.terminations.resolve_right fun raised => running raised.1

theorem Sound.wake {completed : List Nat} (sound : Sound run)
    (step : run.wake completed = some after) : Sound after := by
  unfold WaitRun.wake at step
  have placed := sound.placed
  cases phase : run.phase with
  | waiting =>
      rw [phase] at placed
      by_cases allowed : completed ≠ [] ∧ completed.Perm (run.pending.filter run.done)
      · obtain ⟨some', perm⟩ := allowed
        simp only [phase, ne_eq, some', not_false_eq_true, perm, and_self, if_true,
          Option.some.injEq] at step
        subst step
        have batched (idx : Nat) :
            idx ∈ completed.insertionSort (· ≤ ·) ↔
              idx ∈ run.pending ∧ run.done idx = true := by
          rw [List.mem_insertionSort, perm.mem_iff, List.mem_filter]
        refine
          { sound.toBooks with
            partition := ?_
            sorted := ?_
            nonempty := ?_
            finished := ?_
            latch := ?_
            placed := ⟨⟨run.history.batches, [], ?_, ?_⟩, ?_⟩ }
        · rw [List.flatten_append, List.flatten_singleton, List.append_assoc]
          have whole : (completed.insertionSort (· ≤ ·) ++
              run.pending.filter fun idx => !run.done idx).Perm run.pending :=
            (((List.perm_insertionSort _ completed).trans perm).append_right _).trans
              (List.filter_append_perm _ _)
          exact (whole.append_left _).trans sound.partition
        · exact List.forall_mem_append.mpr ⟨sound.sorted,
            List.forall_mem_singleton.mpr (List.pairwise_insertionSort _ _)⟩
        · refine List.forall_mem_append.mpr ⟨sound.nonempty,
            List.forall_mem_singleton.mpr fun empty => some' ?_⟩
          exact List.length_eq_zero_iff.mp
            ((List.length_insertionSort _ completed).symm.trans (by rw [empty]; rfl))
        · rw [List.flatten_append, List.flatten_singleton]
          exact List.forall_mem_append.mpr
            ⟨sound.finished, fun idx member => ((batched idx).mp member).2⟩
        · exact sound.latch.wake (by simp [phase]) _ _ _
        · rw [List.nil_append]
        · rw [List.append_nil]
          exact placed
        · intro _ idx done
          rw [List.flatten_append, List.flatten_singleton, List.mem_append, batched]
          have inside := sound.partition.mem_iff.mpr
            (List.mem_range.mpr (sound.bounded idx done))
          exact (List.mem_append.mp inside).imp_right fun member => ⟨member, done⟩
      · simp [phase, allowed] at step
  | processing | terminating | returned | raised => simp [phase] at step

section Processing

variable {idx : Nat} {exitCode : Int} {rest : List Nat} {earlier : List (List Nat)}
  {handled : List Nat}

def WaitRun.record (run : WaitRun τ) (idx : Nat) (exitCode : Int) (endedAt : τ) :
    WaitRun τ :=
  { run with
    state := (run.state.recordCompletion idx exitCode endedAt).1
    history := { run.history with processed := run.history.processed ++ [idx] } }

theorem Books.record (books : Books run) (endedAt : τ)
    (result : run.results idx = some exitCode) :
    Books (run.record idx exitCode endedAt) := by
  refine
    { books with
      exitCodesLength := ?_
      recorded := fun other small => ?_ }
  · simp [WaitRun.record, PipelineWaitState.recordCompletion, books.exitCodesLength]
  · have before := books.recorded other small
    have inside : other < run.state.exitCodes.length := by
      rw [books.exitCodesLength]
      exact small
    simp only [WaitRun.record, PipelineWaitState.recordCompletion, List.getElem?_set,
      List.mem_append, List.mem_singleton]
    rcases eq_or_ne idx other with rfl | different
    · simp [inside, result]
    · simp [different, different.symm, before]

theorem Books.fresh_of_halfway (books : Books run)
    (split : run.history.batches = earlier ++ [handled ++ idx :: rest])
    (processed : run.history.processed = earlier.flatten ++ handled) :
    idx ∉ run.history.processed := by
  have distinct : (run.history.batches.flatten ++ run.pending).Nodup :=
    books.partition.nodup_iff.mpr List.nodup_range
  have once := (List.nodup_append.mp distinct).1
  rw [split, List.flatten_append, List.flatten_singleton, ← List.append_assoc,
    ← processed] at once
  have apart := (List.nodup_append.mp once).2.2
  exact fun member => apart idx member idx (.head _) rfl

theorem halfway_record (endedAt : τ)
    (split : run.history.batches = earlier ++ [handled ++ idx :: rest])
    (processed : run.history.processed = earlier.flatten ++ handled) :
    (run.record idx exitCode endedAt).Halfway rest := by
  refine ⟨earlier, handled ++ [idx], ?_, ?_⟩
  · simp [WaitRun.record, split]
  · simp [WaitRun.record, processed]

theorem failureIndex_record_of_failed (endedAt : τ) {failureIndex : Nat}
    (latched : run.state.failureIndex = some failureIndex) :
    (run.record idx exitCode endedAt).state.failureIndex = some failureIndex := by
  simp [WaitRun.record, PipelineWaitState.recordCompletion, latched]

theorem failureIndex_record_of_zero (endedAt : τ) :
    (run.record idx 0 endedAt).state.failureIndex = run.state.failureIndex := by
  simp [WaitRun.record, PipelineWaitState.recordCompletion]

theorem failureIndex_record_of_nonzero (endedAt : τ)
    (unlatched : run.state.failureIndex = none) (nonzero : exitCode ≠ 0) :
    (run.record idx exitCode endedAt).state.failureIndex = some idx := by
  simp [WaitRun.record, PipelineWaitState.recordCompletion, unlatched, nonzero]

theorem Latch.record_of_failed (latch : run.Latch) (endedAt : τ) {failureIndex : Nat}
    (latched : run.state.failureIndex = some failureIndex) :
    (run.record idx exitCode endedAt).Latch := by
  unfold WaitRun.Latch at latch ⊢
  simp only [latched] at latch
  simp only [failureIndex_record_of_failed endedAt latched]
  obtain ⟨before, batch, later, latched⟩ := latch
  exact ⟨before, batch, later,
    { latched with handled := List.mem_append_left _ latched.handled }⟩

theorem Latch.record_of_zero (latch : run.Latch) (endedAt : τ)
    (unlatched : run.state.failureIndex = none) (result : run.results idx = some 0) :
    (run.record idx 0 endedAt).Latch := by
  unfold WaitRun.Latch at latch ⊢
  simp only [unlatched] at latch
  simp only [failureIndex_record_of_zero endedAt, unlatched]
  refine ⟨List.forall_mem_append.mpr ⟨latch.1, ?_⟩, latch.2⟩
  exact List.forall_mem_singleton.mpr result

/-- The first failure of the first batch with one is its lowest: the batch is
taken by stage index. -/
theorem latched_record (books : Books run) (latch : run.Latch) (endedAt : τ)
    (unlatched : run.state.failureIndex = none) (result : run.results idx = some exitCode)
    (nonzero : exitCode ≠ 0)
    (split : run.history.batches = earlier ++ [handled ++ idx :: rest])
    (processed : run.history.processed = earlier.flatten ++ handled)
    (phase : Phase τ) (terminations : List Termination)
    (right : terminations =
        (if idx + 1 ≠ run.stages ∧
            run.targets idx (earlier.flatten ++ (handled ++ idx :: rest)) ≠ [] then
          [⟨idx, run.targets idx (earlier.flatten ++ (handled ++ idx :: rest))⟩]
        else []) ∨
      phase = .raised ∧ terminations = []) :
    WaitRun.Latch
      { run.record idx exitCode endedAt with
        phase := phase
        history :=
          { (run.record idx exitCode endedAt).history with
            terminations := terminations } } := by
  unfold WaitRun.Latch at latch ⊢
  simp only [unlatched] at latch
  simp only [failureIndex_record_of_nonzero endedAt unlatched nonzero]
  rw [processed] at latch
  refine ⟨earlier, handled ++ idx :: rest, [],
    { split := split
      succeeded := fun other member => latch.1 other (List.mem_append_left _ member)
      member := by simp
      handled := by simp [WaitRun.record]
      failed := ⟨exitCode, result, nonzero⟩
      lowest := fun other member failed => ?_
      terminations := right }⟩
  have sorted := books.sorted (handled ++ idx :: rest) (by simp [split])
  cases List.mem_append.mp member with
  | inl member =>
      obtain ⟨code, result, nonzero⟩ := failed
      have zero := latch.1 other (List.mem_append_right _ member)
      cases result.symm.trans zero
      exact absurd rfl nonzero
  | inr member =>
      cases member with
      | head => exact Nat.le_refl _
      | tail _ member =>
          exact List.rel_of_pairwise_cons (List.pairwise_append.mp sorted).2.1 member

theorem targets_of_done {seen : List Nat} (failureIndex : Nat)
    (done : ∀ other, run.done other = decide (other ∈ seen)) :
    stagesToTerminate failureIndex ((List.range run.stages).map run.done)
        (run.policy.ownershipOf run.stages) =
      run.targets failureIndex seen := by
  unfold WaitRun.targets
  rw [funext done]

theorem hasStagesToTerminate_of_done {seen : List Nat} (failureIndex : Nat)
    (done : ∀ other, run.done other = decide (other ∈ seen)) :
    hasStagesToTerminate failureIndex ((List.range run.stages).map run.done) run.policy =
      !(run.targets failureIndex seen).isEmpty := by
  unfold hasStagesToTerminate
  rw [List.length_map, List.length_range, targets_of_done failureIndex done]

theorem processCompletedTask_quiet (endedAt : τ) (reported : Bool)
    (other : (run.record idx exitCode endedAt).state.failureIndex ≠ some idx) :
    run.processCompletedTask idx exitCode endedAt reported rest =
      (run.record idx exitCode endedAt).proceed rest := by
  simp only [WaitRun.record] at other
  simp only [WaitRun.processCompletedTask, Bool.and_false, Bool.false_and,
    Bool.false_eq_true, if_false, PipelineWaitState.shouldTerminateOthers,
    beq_eq_false_iff_ne.mpr other]
  rfl

theorem processCompletedTask_latching (endedAt : τ) (reported : Bool)
    (books : Books run) (unlatched : run.state.failureIndex = none)
    (nonzero : exitCode ≠ 0) {seen : List Nat}
    (done : ∀ other, run.done other = decide (other ∈ seen)) :
    run.processCompletedTask idx exitCode endedAt reported rest =
      if reported = false then { run.record idx exitCode endedAt with phase := .raised }
      else if idx + 1 ≠ run.stages ∧ run.targets idx seen ≠ [] then
        { run.record idx exitCode endedAt with
          phase := .terminating rest
          history :=
            { (run.record idx exitCode endedAt).history with
              terminations := run.history.terminations ++ [⟨idx, run.targets idx seen⟩] } }
      else (run.record idx exitCode endedAt).proceed rest := by
  have latched := @failureIndex_record_of_nonzero _ _ idx _ endedAt unlatched nonzero
  have length := books.exitCodesLength
  simp only [WaitRun.record] at latched
  simp only [WaitRun.processCompletedTask, latched, unlatched,
    hasStagesToTerminate_of_done idx done, targets_of_done idx done,
    PipelineWaitState.shouldTerminateOthers]
  cases reported with
  | false => simp [WaitRun.record]
  | true =>
      simp [WaitRun.record, PipelineWaitState.recordCompletion, length]

theorem Sound.process {endedAt : τ} {reported : Bool} (sound : Sound run)
    (step : run.process endedAt reported = some after) : Sound after := by
  unfold WaitRun.process at step
  have placed := sound.placed
  cases phase : run.phase with
  | processing batch =>
      cases batch with
      | nil => simp [phase] at step
      | cons idx rest =>
          rw [phase] at placed
          obtain ⟨⟨earlier, handled, split, processed⟩, fresh⟩ := placed
          simp only [phase, Option.map_eq_some_iff] at step
          obtain ⟨exitCode, result, rfl⟩ := step
          have books := sound.toBooks.record endedAt result
          have halfway := @halfway_record _ _ idx exitCode rest _ _ endedAt split processed
          have running : (run.record idx exitCode endedAt).phase ≠ .raised := by
            simp [WaitRun.record, phase]
          cases unlatched : run.state.failureIndex with
          | some failureIndex =>
              have same := @failureIndex_record_of_failed _ _ idx exitCode endedAt _ unlatched
              have latch := @Latch.record_of_failed _ _ idx exitCode sound.latch endedAt _
                unlatched
              rw [processCompletedTask_quiet]
              · apply Sound.proceed books latch running halfway
                exact fun none => absurd (none.symm.trans same) (by simp)
              · rw [same]
                rintro ⟨rfl⟩
                have latch := sound.latch
                unfold WaitRun.Latch at latch
                simp only [unlatched] at latch
                obtain ⟨before, batch, later, latched⟩ := latch
                exact sound.toBooks.fresh_of_halfway split processed latched.handled
          | none =>
              rcases eq_or_ne exitCode 0 with rfl | nonzero
              · have same := @failureIndex_record_of_zero _ run idx endedAt
                rw [processCompletedTask_quiet _ _ (by simp [same, unlatched])]
                apply Sound.proceed books
                  (Latch.record_of_zero sound.latch endedAt unlatched result) running halfway
                exact fun _ => fresh unlatched
              · have done (other : Nat) : run.done other =
                    decide (other ∈ earlier.flatten ++ (handled ++ idx :: rest)) := by
                  have flat : run.history.batches.flatten =
                      earlier.flatten ++ (handled ++ idx :: rest) := by simp [split]
                  rw [← flat, Bool.eq_iff_iff, decide_eq_true_iff]
                  exact ⟨fresh unlatched other, sound.finished other⟩
                have latch := latched_record sound.toBooks sound.latch endedAt unlatched
                  result nonzero split processed
                have none : run.history.terminations = [] := by
                  have before := sound.latch
                  unfold WaitRun.Latch at before
                  simp only [unlatched] at before
                  exact before.2
                have latched := @failureIndex_record_of_nonzero _ run idx _ endedAt unlatched
                  nonzero
                rw [processCompletedTask_latching endedAt reported sound.toBooks unlatched
                  nonzero done]
                split
                · refine { books with latch := ?_, placed := ?_ }
                  · exact latch .raised run.history.terminations (.inr ⟨rfl, none⟩)
                  · exact @WaitRun.Placed.processed_subset _ _ (.terminating rest)
                      ⟨halfway, by simp [latched]⟩
                · split
                  · rename_i stops
                    refine { books with latch := ?_, placed := ⟨halfway, by simp [latched]⟩ }
                    exact latch (.terminating rest) _ (.inl (by simp [none, stops]))
                  · rename_i goes
                    apply Sound.proceed books _ running halfway
                    · exact fun unlatched => absurd (unlatched.symm.trans latched) (by simp)
                    · exact latch run.phase run.history.terminations
                        (.inl (by rw [none, if_neg goes]))
  | waiting | terminating | returned | raised => simp [phase] at step

end Processing

theorem Sound.next {event : Event τ} (sound : Sound run)
    (step : next run event = some after) : Sound after := by
  cases event with
  | finish idx code => exact sound.finish step
  | wake completed => exact sound.wake step
  | process endedAt reported => exact sound.process step
  | terminated => exact sound.terminated step
  | raise => exact sound.raise step

theorem Sound.start (stages : Nat) (policy : OwnsGroup)
    (startedAt wallClockStartedAt : List τ) :
    Sound (WaitRun.start stages policy startedAt wallClockStartedAt) := by
  apply Sound.proceedNil
  · exact
      { exitCodesLength := List.length_replicate
        partition := List.Perm.refl _
        sorted := by simp
        nonempty := by simp
        bounded := fun idx done => by simp [WaitRun.done] at done
        finished := by simp
        recorded := fun idx small => by
          simp [PipelineWaitState.fromProcesses, small] }
  · exact ⟨by simp, rfl⟩
  · simp
  · rfl

end Cuprum.Pipeline
