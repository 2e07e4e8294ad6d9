import Cuprum.Pipeline.FailFast

namespace Cuprum.Pipeline

variable {τ : Type} {run after : WaitRun τ}

/-- What no step of the wait changes. -/
structure WaitRun.Keeps (run after : WaitRun τ) : Prop where
  stages : after.stages = run.stages
  policy : after.policy = run.policy
  failureIndex : ∀ failureIndex, run.state.failureIndex = some failureIndex →
    after.state.failureIndex = some failureIndex

theorem WaitRun.keeps_proceed (run : WaitRun τ) (rest : List Nat) :
    run.Keeps (run.proceed rest) := by
  cases rest with
  | cons idx rest => exact ⟨rfl, rfl, fun _ latched => latched⟩
  | nil =>
      rcases eq_or_ne run.pending [] with pending | pending
      · rw [proceed_nil_of_nil pending]
        exact ⟨rfl, rfl, fun _ latched => latched⟩
      · rw [proceed_nil_of_ne pending]
        exact ⟨rfl, rfl, fun _ latched => latched⟩

theorem WaitRun.keeps_record (run : WaitRun τ) (idx : Nat) (exitCode : Int)
    (endedAt : τ) : run.Keeps (run.record idx exitCode endedAt) :=
  ⟨rfl, rfl, fun _ latched => failureIndex_record_of_failed endedAt latched⟩

theorem WaitRun.Keeps.trans {middle : WaitRun τ} (first : run.Keeps middle)
    (second : middle.Keeps after) : run.Keeps after :=
  { stages := second.stages.trans first.stages
    policy := second.policy.trans first.policy
    failureIndex := fun failureIndex latched =>
      second.failureIndex failureIndex (first.failureIndex failureIndex latched) }

theorem WaitRun.keeps_processCompletedTask (run : WaitRun τ) (idx : Nat)
    (exitCode : Int) (endedAt : τ) (reported : Bool) (rest : List Nat) :
    run.Keeps (run.processCompletedTask idx exitCode endedAt reported rest) := by
  have recorded := run.keeps_record idx exitCode endedAt
  unfold WaitRun.processCompletedTask
  simp only
  split
  · exact ⟨rfl, rfl, recorded.failureIndex⟩
  · split
    · exact ⟨rfl, rfl, recorded.failureIndex⟩
    · exact recorded.trans (keeps_proceed _ rest)

theorem keeps_next {event : Event τ} (step : next run event = some after) :
    run.Keeps after := by
  cases event with
  | finish idx code =>
      simp only [next, WaitRun.finish] at step
      split at step
      · split at step <;> cases step <;> exact ⟨rfl, rfl, fun _ latched => latched⟩
      · cases step
  | wake completed =>
      simp only [next, WaitRun.wake] at step
      split at step
      · split at step <;> cases step
        exact ⟨rfl, rfl, fun _ latched => latched⟩
      · cases step
  | process endedAt reported =>
      simp only [next, WaitRun.process] at step
      split at step
      · obtain ⟨exitCode, -, rfl⟩ := Option.map_eq_some_iff.mp step
        apply WaitRun.keeps_processCompletedTask
      · cases step
  | terminated =>
      simp only [next, WaitRun.terminated] at step
      split at step <;> cases step
      apply WaitRun.keeps_proceed
  | raise =>
      simp only [next, WaitRun.raise] at step
      split at step <;> cases step <;> exact ⟨rfl, rfl, fun _ latched => latched⟩

theorem keeps_exec {spawned : Spawned τ} {events : List (Event τ)}
    (runs : (system spawned).exec run events = some after) : run.Keeps after := by
  have start : run.Keeps run := ⟨rfl, rfl, fun _ latched => latched⟩
  exact (system spawned).exec_invariant
    (fun kept step => WaitRun.Keeps.trans kept (keeps_next step)) start runs

theorem stagesToTerminate_ne_nil_iff {failureIndex : Nat} {done ownsGroup : List Bool} :
    stagesToTerminate failureIndex done ownsGroup ≠ [] ↔
      ∃ idx, idx < done.length ∧
        (ownsGroup.getD idx false = true ∨
          idx ≠ failureIndex ∧ done.getD idx false = false) := by
  unfold stagesToTerminate
  rw [ne_eq, List.filter_eq_nil_iff]
  simp only [List.mem_range, stageMayOwnLiveGroup, not_forall, not_not, Bool.or_eq_true,
    Bool.and_eq_true, bne_iff_ne, Bool.not_eq_true', exists_prop]

theorem Spawned.getD_ownershipOf (spawned : Spawned τ) {idx : Nat}
    (inside : idx < spawned.stages) :
    (spawned.policy.ownershipOf spawned.stages).getD idx false = spawned.ownsGroup := by
  simp [OwnsGroup.ownershipOf, OwnsGroup.ownsGroupFor, policy, inside]

/-- A spawned pipeline owns the groups of all its stages or of none, so its
fail-fast has a subject exactly where another stage is live or owned. -/
theorem targets_ne_nil_iff {spawned : Spawned τ} {failureIndex : Nat}
    {seen : List Nat} (stages : run.stages = spawned.stages)
    (policy : run.policy = spawned.policy) (inside : failureIndex < spawned.stages)
    (notLast : failureIndex + 1 ≠ spawned.stages) :
    run.targets failureIndex seen ≠ [] ↔
      ∃ other, other < spawned.stages ∧ other ≠ failureIndex ∧
        (other ∉ seen ∨ spawned.ownsGroup = true) := by
  unfold WaitRun.targets
  rw [stagesToTerminate_ne_nil_iff, stages, policy, List.length_map, List.length_range]
  constructor
  · rintro ⟨idx, small, selected⟩
    rw [spawned.getD_ownershipOf small] at selected
    cases selected with
    | inl owned =>
        refine ⟨if failureIndex = 0 then 1 else 0, ?_, ?_, .inr owned⟩ <;>
          split <;> omega
    | inr live =>
        refine ⟨idx, small, live.1, .inl fun member => ?_⟩
        simp [small, member] at live
  · rintro ⟨other, small, different, reason⟩
    refine ⟨other, small, ?_⟩
    rw [spawned.getD_ownershipOf small]
    cases reason with
    | inl unseen => exact .inr ⟨different, by simp [small, unseen]⟩
    | inr owned => exact .inl owned

theorem reachable_sound {spawned : Spawned τ}
    (reachable : (system spawned).Reachable run) : Sound run :=
  reachable.invariant (Sound.start _ _ _ _) Sound.next

theorem reachable_configured {spawned : Spawned τ}
    (reachable : (system spawned).Reachable run) :
    run.stages = spawned.stages ∧ run.policy = spawned.policy := by
  obtain ⟨events, runs⟩ := reachable
  have kept := keeps_exec runs
  have start := WaitRun.keeps_proceed
    { stages := spawned.stages
      policy := spawned.policy
      results := fun _ => none
      state := .fromProcesses spawned.stages spawned.startedAt spawned.wallClockStartedAt
      pending := List.range spawned.stages
      phase := .waiting
      history := ⟨[], [], []⟩ : WaitRun τ }
    []
  exact ⟨kept.stages.trans start.stages, kept.policy.trans start.policy⟩

theorem Sound.all_processed (sound : Sound run) {result : PipelineWaitResult τ}
    (returned : run.phase = .returned result) {idx : Nat} (inside : idx < run.stages) :
    idx ∈ run.history.processed ∧ ∃ code, run.results idx = some code := by
  have placed := sound.placed
  rw [returned] at placed
  obtain ⟨processed, pending, -⟩ := placed
  have member := sound.partition.mem_iff.mpr (List.mem_range.mpr inside)
  rw [pending, List.append_nil] at member
  exact ⟨processed ▸ member, done_iff.mp (sound.finished idx member)⟩

theorem Sound.returned_codes (sound : Sound run) {result : PipelineWaitResult τ}
    (returned : run.phase = .returned result) {idx : Nat} (inside : idx < run.stages) :
    ∃ code, run.results idx = some code ∧ result.exitCodes[idx]? = some code := by
  obtain ⟨processed, code, finished⟩ := sound.all_processed returned inside
  have placed := sound.placed
  rw [returned] at placed
  obtain ⟨-, -, rfl⟩ := placed
  refine ⟨code, finished, ?_⟩
  have recorded := sound.recorded idx inside
  simp [WaitRun.result, recorded, processed, finished]

/-- Nothing is latched when all codes are zero, and something is when one is
not. -/
theorem Sound.returned_failureIndex (sound : Sound run) {result : PipelineWaitResult τ}
    (returned : run.phase = .returned result) :
    run.state.failureIndex = none ↔
      ∀ idx, idx < run.stages → run.results idx = some 0 := by
  have latch := sound.latch
  unfold WaitRun.Latch at latch
  constructor
  · intro unlatched idx inside
    simp only [unlatched] at latch
    exact latch.1 idx (sound.all_processed returned inside).1
  · intro zero
    cases latched : run.state.failureIndex with
    | none => rfl
    | some failureIndex =>
        simp only [latched] at latch
        obtain ⟨before, batch, later, latched⟩ := latch
        obtain ⟨code, finished, nonzero⟩ := latched.failed
        have inside := sound.bounded failureIndex (done_iff.mpr ⟨code, finished⟩)
        cases finished.symm.trans (zero failureIndex inside)
        exact absurd rfl nonzero

theorem WaitRun.Latched.terminations_length {failureIndex : Nat}
    {before later : List (List Nat)} {batch : List Nat}
    (latched : run.Latched failureIndex before batch later) :
    run.history.terminations.length ≤ 1 := by
  rcases latched.terminations with requested | ⟨-, none⟩
  · rw [requested]
    split <;> simp
  · simp [none]

theorem WaitRun.Latched.terminations_iff {failureIndex : Nat}
    {before later : List (List Nat)} {batch : List Nat}
    (latched : run.Latched failureIndex before batch later)
    (running : run.phase ≠ .raised) :
    run.history.terminations ≠ [] ↔
      failureIndex + 1 ≠ run.stages ∧
        run.targets failureIndex (before.flatten ++ batch) ≠ [] := by
  rw [latched.terminations.resolve_right fun raised => running raised.1]
  split
  · rename_i requested
    simp [requested]
  · rename_i quiet
    exact ⟨fun wrong => absurd rfl wrong, fun requested => absurd requested quiet⟩

/-- The fail-fast of a pipeline is decided once and by its first failure. -/
theorem fail_fast_decided_once_by_first_failure {spawned : Spawned τ}
    (reachable : (system spawned).Reachable run) :
    (run.history.batches.flatten ++ run.pending).Perm (List.range spawned.stages) ∧
    (∀ result, run.phase = .returned result →
      (∀ idx, idx < spawned.stages →
        ∃ code, run.results idx = some code ∧ result.exitCodes[idx]? = some code) ∧
      result.failureIndex = run.state.failureIndex ∧
      (result.failureIndex = none ↔
        ∀ idx, idx < spawned.stages → run.results idx = some 0)) ∧
    (run.state.failureIndex = none → run.history.terminations = []) ∧
    (∀ failureIndex, run.state.failureIndex = some failureIndex →
      ∃ before batch later, run.history.batches = before ++ batch :: later ∧
        (∀ idx ∈ before.flatten, run.results idx = some 0) ∧
        failureIndex ∈ batch ∧ run.Failed failureIndex ∧
        (∀ idx ∈ batch, run.Failed idx → failureIndex ≤ idx) ∧
        run.history.terminations.length ≤ 1 ∧
        (run.phase ≠ .raised →
          (run.history.terminations ≠ [] ↔
            failureIndex + 1 ≠ spawned.stages ∧
              ∃ other, other < spawned.stages ∧ other ≠ failureIndex ∧
                (other ∉ before.flatten ++ batch ∨ spawned.ownsGroup = true)))) ∧
    (∀ failureIndex, run.state.failureIndex = some failureIndex →
      ∀ events after, (system spawned).exec run events = some after →
        after.state.failureIndex = some failureIndex) := by
  have sound := reachable_sound reachable
  obtain ⟨stages, policy⟩ := reachable_configured reachable
  have latch := sound.latch
  unfold WaitRun.Latch at latch
  refine ⟨stages ▸ sound.partition, fun result returned => ?_, fun unlatched => ?_,
    fun failureIndex latched => ?_, fun failureIndex latched events after runs =>
      (keeps_exec runs).failureIndex failureIndex latched⟩
  · rw [← stages]
    have placed := sound.placed
    rw [returned] at placed
    have same : result.failureIndex = run.state.failureIndex := by
      rw [placed.2.2]
      rfl
    refine ⟨fun idx inside => sound.returned_codes returned inside, same, ?_⟩
    rw [same]
    exact sound.returned_failureIndex returned
  · simp only [unlatched] at latch
    exact latch.2
  · simp only [latched] at latch
    obtain ⟨before, batch, later, latched⟩ := latch
    refine ⟨before, batch, later, latched.split, latched.succeeded, latched.member,
      latched.failed, latched.lowest, latched.terminations_length, fun running => ?_⟩
    obtain ⟨code, finished, -⟩ := latched.failed
    have inside := sound.bounded failureIndex (done_iff.mpr ⟨code, finished⟩)
    rw [latched.terminations_iff running, stages]
    rw [stages] at inside
    exact and_congr_right fun notLast => targets_ne_nil_iff stages policy inside notLast

def threeStages : Spawned Nat := ⟨3, false, [0, 0, 0], [0, 0, 0]⟩

/-- The last two stages end together, the set has the last one first, and the
middle one failed: the first stage is stopped. -/
def middleFails : List (Event Nat) :=
  [.finish 2 0, .finish 1 3, .wake [2, 1], .process 5 true, .finish 0 (-15),
    .terminated, .process 6 true, .wake [0], .process 7 true]

def middleFailed : WaitRun Nat :=
  ((system threeStages).exec (system threeStages).initial middleFails).getD
    (system threeStages).initial

theorem middleFailed_reachable : (system threeStages).Reachable middleFailed :=
  ⟨middleFails, rfl⟩

theorem fail_fast_decided_once_by_first_failure_middle :
    middleFailed.history.batches = [[1, 2], [0]] ∧
      middleFailed.history.terminations = [⟨1, [0]⟩] ∧
      ∀ events after, (system threeStages).exec middleFailed events = some after →
        after.state.failureIndex = some 1 :=
  ⟨rfl, rfl,
    (fail_fast_decided_once_by_first_failure middleFailed_reachable).2.2.2.2 1 rfl⟩

end Cuprum.Pipeline
