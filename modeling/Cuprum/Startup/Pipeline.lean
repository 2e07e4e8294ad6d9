import Cuprum.Startup.Command

namespace Cuprum.Startup

open Cuprum.Effect

variable {count : Nat} {env : Env count} {ledger : Ledger count}

/-- What a pipeline that is being spawned has made: its children run, and its tasks are
recorded, or have been made by a stage that has yet to record them. -/
structure Ledger.Staged (created : List (Fin count)) (staged made : List (Job count))
    (watched : Bool) (ledger : Ledger count) : Prop where
  child : ∀ stage, ledger.child stage = if stage ∈ created then .live else .absent
  processes : ledger.processes = created
  recorded : ledger.recorded = staged
  tasks : ∀ job, ledger.task job = .live ↔
    job ∈ staged ∨ job ∈ made ∨ job = .heartbeat ∧ watched = true
  sinks : ∀ stage stream, ledger.sink stage stream = true →
    ledger.task (.consumer stage stream) = .live
  opened : ledger.opened = []
  closes : ∀ stream, ledger.closes stream = 0

variable {created : List (Fin count)} {jobs made : List (Job count)} {watched : Bool}

theorem staged_initially : Ledger.Staged [] [] [] false ({} : Ledger count) where
  child := fun _ => by simp
  processes := rfl
  recorded := rfl
  tasks := fun _ => by simp
  sinks := fun _ _ wrong => (by cases wrong)
  opened := rfl
  closes := fun _ => rfl

theorem Ledger.Staged.suspend (staged : ledger.Staged created jobs made watched) :
    (left (suspend env) ledger).Staged created jobs made watched :=
  { staged with
    sinks := by
      intro stage stream held
      rcases Bool.or_eq_true_iff.mp held with held | spilt
      · exact staged.sinks stage stream held
      · exact of_decide_eq_true (Bool.and_eq_true_iff.mp spilt).1 }

theorem Ledger.Staged.spawn (staged : ledger.Staged created jobs made watched)
    (stage : Fin count) :
    Ledger.Staged (created ++ [stage]) jobs made watched { ledger with
      child := Function.update ledger.child stage .live
      processes := ledger.processes ++ [stage] } :=
  { staged with
    child := by
      intro other
      by_cases same : other = stage
      · subst same
        simp
      · simp [staged.child other, same]
    processes := congrArg (· ++ [stage]) staged.processes }

/-- A task that has been made is watched over, or has yet to be recorded. -/
theorem Ledger.Staged.create {job : Job count} {later : List (Job count)} {watches : Bool}
    (staged : ledger.Staged created jobs made watched)
    (makes : ∀ other, other = job ∨ other ∈ made ∨ other = .heartbeat ∧ watched = true ↔
      other ∈ later ∨ other = .heartbeat ∧ watches = true) :
    (left (create job) ledger).Staged created jobs later watches :=
  have tasks : ∀ other, Function.update ledger.task job .live other = .live ↔
      other = job ∨ ledger.task other = .live := by
    intro other
    by_cases same : other = job
    · subst same
      simp
    · simp [same]
  { staged with
    tasks := by
      intro other
      rw [← makes other]
      change Function.update ledger.task job .live other = .live ↔ _
      rw [tasks other, staged.tasks other]
      tauto
    sinks := by
      intro stage stream held
      exact (tasks _).mpr (.inr (staged.sinks stage stream held)) }

theorem Ledger.Staged.record (staged : ledger.Staged created jobs made watched) :
    (left (record made) ledger).Staged created (jobs ++ made) [] watched :=
  { staged with
    recorded := congrArg (· ++ made) staged.recorded
    tasks := by
      intro job
      change ledger.task job = .live ↔ _
      rw [staged.tasks job, List.mem_append]
      simp only [List.not_mem_nil, false_or, or_assoc] }

theorem call_staged {site : Site count} (staged : ledger.Staged created jobs made watched) :
    Ends (call env site)
      (fun _ after => (env.raises site).isNone = true ∧ after.Staged created jobs made watched)
      (fun _ after => (env.raises site).isNone = false ∧
        after.Staged created jobs made watched) ledger := by
  apply call_answers.mono
  · rintro _ after ⟨rfl, answer⟩
    exact ⟨answer, staged⟩
  · rintro error after ⟨rfl, answer⟩
    exact ⟨answer, staged⟩

def Env.captures (env : Env count) (stage : Fin count) (stream : Stream) : Bool :=
  (env.raises (.callback stage stream)).isNone &&
    (!env.consumes stream || (env.raises (.consumer stage stream)).isNone)

/-- The consumer that a stage makes for a stream. -/
def Env.captureTask (env : Env count) (stage : Fin count) (stream : Stream) :
    List (Job count) :=
  if env.consumes stream then [.consumer stage stream] else []

theorem createCaptureTask_ends {stage : Fin count} {stream : Stream}
    (staged : ledger.Staged created jobs made watched) :
    Ends (createCaptureTask env stage stream)
      (fun _ after => env.captures stage stream = true ∧
        after.Staged created jobs (made ++ env.captureTask stage stream) watched)
      (fun _ after => env.captures stage stream = false ∧
        after.Staged created jobs made watched) ledger := by
  apply Ends.bind
  apply (call_staged staged).mono
  · rintro _ called ⟨calls, staged⟩
    cases consumes : env.consumes stream with
    | false =>
        apply Ends.returns
        refine ⟨by simp [Env.captures, calls, consumes], ?_⟩
        simpa [Env.captureTask, consumes] using staged
    | true =>
        simp only [if_true]
        apply Ends.bind
        apply (call_staged staged).mono
        · rintro _ made ⟨makes, staged⟩
          apply Ends.updates
          refine ⟨by simp [Env.captures, calls, consumes, makes], staged.create ?_⟩
          intro other
          simp only [Env.captureTask, consumes, if_true, List.mem_append, List.mem_singleton]
          tauto
        · rintro error made ⟨makes, staged⟩
          exact ⟨by simp [Env.captures, consumes, makes], staged⟩
  · rintro error called ⟨calls, staged⟩
    exact ⟨by simp [Env.captures, calls], staged⟩

theorem createOutputTask_ends {stage : Fin count} {last : Bool}
    (staged : ledger.Staged created jobs made watched) :
    Ends (createOutputTask env stage last)
      (fun _ after => (!last || env.captures stage .stdout) = true ∧
        (last = false → after.Staged created jobs made watched))
      (fun _ after => (!last || env.captures stage .stdout) = false ∧
        after.Staged created jobs made watched) ledger := by
  unfold createOutputTask
  cases last with
  | false => exact Ends.returns ⟨rfl, fun _ => staged⟩
  | true =>
      apply (createCaptureTask_ends staged).mono
      · rintro _ after ⟨captures, _⟩
        exact ⟨captures, fun wrong => (by cases wrong)⟩
      · exact fun _ _ raised => raised

/-- What a stage that captures, but does not record, leaves behind is its consumer. -/
theorem createStageCaptureTasks_ends {stage : Fin count} {last : Bool}
    (staged : ledger.Staged created jobs [] watched) :
    Ends (createStageCaptureTasks env stage last)
      (fun _ after => env.captures stage .stderr = true ∧
        (!last || env.captures stage .stdout) = true ∧
        (last = false →
          after.Staged created (jobs ++ env.captureTask stage .stderr) [] watched))
      (fun _ after =>
        env.captures stage .stderr = false ∧ after.Staged created jobs [] watched ∨
        env.captures stage .stderr = true ∧ (!last || env.captures stage .stdout) = false ∧
          after.Staged created jobs (env.captureTask stage .stderr) watched) ledger := by
  apply Ends.bind
  apply (createCaptureTask_ends staged).mono
  · rintro _ errors ⟨captures, staged⟩
    apply Ends.bind
    apply (createOutputTask_ends staged).mono
    · rintro _ output ⟨also, staged⟩
      apply Ends.updates
      refine ⟨captures, also, fun unlast => ?_⟩
      subst unlast
      have recorded := (staged rfl).record
      have same : ([Stream.stderr, .stdout].filter fun stream =>
          env.consumes stream && (false || stream = .stderr)).map (Job.consumer stage) =
          [] ++ env.captureTask stage .stderr := by
        cases consumes : env.consumes .stderr <;> simp [Env.captureTask, consumes]
      exact same ▸ recorded
    · rintro error output ⟨fails, staged⟩
      exact .inr ⟨captures, fails, staged⟩
  · rintro error errors ⟨fails, staged⟩
    exact .inl ⟨fails, staged⟩

def Env.spawnsStage (env : Env count) (stage : Fin count) : Bool :=
  (env.raises (.spawn stage)).isNone

def Env.startsStage (env : Env count) (stage : Fin count) (first : Bool) : Bool :=
  (env.raises (.start stage)).isNone && (!first || env.launches)

theorem launchFirst_ends {first : Bool}
    (staged : ledger.Staged created jobs [] (env.watches && !first)) :
    Ends (launchFirst env first)
      (fun _ after => (!first || env.launches) = true ∧
        after.Staged created jobs [] env.watches)
      (fun _ after => (!first || env.launches) = false ∧
        after.Staged created jobs [] (env.watches && !first)) ledger := by
  unfold launchFirst
  cases first with
  | false => exact Ends.returns ⟨rfl, by simpa using staged⟩
  | true =>
      simp only [if_true]
      unfold launchIdleMonitor
      cases idle : env.idle with
      | false =>
          refine Ends.returns ⟨by simp [Env.launches, idle], ?_⟩
          simpa [Env.watches, idle] using staged
      | true =>
          simp only [if_true]
          apply Ends.bind
          apply (call_staged staged).mono
          · rintro _ called ⟨launches, staged⟩
            apply Ends.updates
            refine ⟨by simp [Env.launches, launches], staged.create ?_⟩
            intro other
            simp [Env.watches, idle, launches]
          · rintro error called ⟨launches, staged⟩
            exact ⟨by simp [Env.launches, idle, launches], staged⟩

/-- A killed child is left, whose exit nothing that follows awaits. -/
def Ledger.Stranded (ledger : Ledger count) : Prop :=
  ∃ stage, ledger.child stage = .killed

theorem Ledger.Stranded.not_clean (stranded : ledger.Stranded) : ¬ledger.Clean env := by
  obtain ⟨stage, killed⟩ := stranded
  exact Ledger.Clean.not_of_child (congrArg Child.isSettled killed)

/-- How far a stage that raises has come. -/
inductive Ledger.Stopped (env : Env count) (created : List (Fin count))
    (jobs : List (Job count)) (stage : Fin count) (first last : Bool)
    (ledger : Ledger count) : Prop
  | unspawned (fails : env.spawnsStage stage = false)
      (awaited : env.strands (.spawn stage) = false)
      (staged : ledger.Staged created jobs [] (env.watches && !first))
  | stranded (fails : env.spawnsStage stage = false)
      (strands : env.strands (.spawn stage) = true) (stranded : ledger.Stranded)
  | unstarted (spawns : env.spawnsStage stage = true)
      (fails : env.startsStage stage first = false)
      (staged : ledger.Staged (created ++ [stage]) jobs [] (env.watches && !first))
  | uncaptured (spawns : env.spawnsStage stage = true)
      (starts : env.startsStage stage first = true)
      (fails : env.captures stage .stderr = false)
      (staged : ledger.Staged (created ++ [stage]) jobs [] env.watches)
  | unrecorded (spawns : env.spawnsStage stage = true)
      (starts : env.startsStage stage first = true)
      (captures : env.captures stage .stderr = true)
      (fails : (!last || env.captures stage .stdout) = false)
      (staged : ledger.Staged (created ++ [stage]) jobs (env.captureTask stage .stderr)
        env.watches)

theorem spawnStage_ends {stage : Fin count} {first last : Bool}
    (staged : ledger.Staged created jobs [] (env.watches && !first)) :
    Ends (spawnStage env stage first last)
      (fun _ after => env.spawnsStage stage = true ∧ env.startsStage stage first = true ∧
        env.captures stage .stderr = true ∧ (!last || env.captures stage .stdout) = true ∧
        (last = false → after.Staged (created ++ [stage])
          (jobs ++ env.captureTask stage .stderr) [] env.watches))
      (fun _ after => after.Stopped env created jobs stage first last) ledger := by
  apply Ends.bind
  apply Ends.updates
  have staged : (left (suspend env) ledger).Staged created jobs [] (env.watches && !first) :=
    staged.suspend
  apply Ends.bind
  apply createSubprocessExec_ends.mono
  · rintro _ spawned ⟨rfl, spawns⟩
    apply Ends.bind
    apply Ends.updates
    apply Ends.bind
    apply (call_staged (staged.spawn stage)).mono
    · rintro _ started ⟨starts, staged⟩
      apply Ends.bind
      apply (launchFirst_ends staged).mono
      · rintro _ launched ⟨launches, staged⟩
        have starts : env.startsStage stage first = true := by
          rw [Env.startsStage, starts, launches]
          rfl
        apply (createStageCaptureTasks_ends staged).mono
        · rintro _ after captured
          exact ⟨spawns, starts, captured⟩
        · rintro error after (⟨fails, staged⟩ | ⟨captures, fails, staged⟩)
          · exact .uncaptured spawns starts fails staged
          · exact .unrecorded spawns starts captures fails staged
      · rintro error launched ⟨fails, staged⟩
        exact .unstarted spawns (by rw [Env.startsStage, fails, Bool.and_false]) staged
    · rintro error started ⟨fails, staged⟩
      exact .unstarted spawns (by rw [Env.startsStage, fails, Bool.false_and]) staged
  · rintro error spawned ⟨fails, ⟨awaited, rfl⟩ | ⟨strands, rfl⟩⟩
    · exact .unspawned fails awaited staged
    · exact .stranded fails strands ⟨stage, Function.update_self ..⟩

/-- What has been made is reclaimed: no cancellation of the heartbeat's stop skips it
all, every child is reached, every task has been recorded, and where there is one, no
cancellation of the termination skips them. -/
def Env.reclaims (env : Env count) (created : List (Fin count)) (staged made : List (Job count))
    (watched : Bool) : Bool :=
  (!watched || (env.raises .heartbeat).isNone) && (created.all env.reaches &&
    (made.isEmpty && (staged.isEmpty || !env.interrupts .terminate)))

def Env.errorTasks (env : Env count) (stages : List (Fin count)) : List (Job count) :=
  stages.flatMap fun stage => env.captureTask stage .stderr

/-- A start that fails at a stage is reclaimed from there. -/
def Env.cleansStages (env : Env count) : List (Fin count) → List (Fin count) → Bool
  | _, [] => true
  | earlier, stage :: stages =>
      let watched := env.watches && !earlier.isEmpty
      if env.spawnsStage stage = false then
        !env.strands (.spawn stage) && env.reclaims earlier (env.errorTasks earlier) [] watched
      else if env.startsStage stage earlier.isEmpty = false then
        env.reclaims (earlier ++ [stage]) (env.errorTasks earlier) [] watched
      else if env.captures stage .stderr = false then
        env.reclaims (earlier ++ [stage]) (env.errorTasks earlier) [] env.watches
      else if (!stages.isEmpty || env.captures stage .stdout) = false then
        env.reclaims (earlier ++ [stage]) (env.errorTasks earlier)
          (env.captureTask stage .stderr) env.watches
      else
        env.cleansStages (earlier ++ [stage]) stages

def Env.cleansPipeline (env : Env count) : Bool :=
  env.cleansStages [] (List.finRange count)

/-- Where the start of a pipeline can stop. -/
structure Ledger.Reclaimable (env : Env count) (cleans : Bool) (created : List (Fin count))
    (jobs made : List (Job count)) (watched : Bool) (ledger : Ledger count) : Prop where
  staged : ledger.Staged created jobs made watched
  children : watched = true → created ≠ []
  consumers : .heartbeat ∉ jobs ∧ .heartbeat ∉ made
  fresh : ∀ job ∈ made, job ∉ jobs
  decides : cleans = env.reclaims created jobs made watched

/-- What a start that stops has left: a child that is stranded, or what can be
reclaimed. -/
def Ledger.Left (env : Env count) (cleans : Bool) (ledger : Ledger count) : Prop :=
  cleans = false ∧ ledger.Stranded ∨
    ∃ created jobs made watched, ledger.Reclaimable env cleans created jobs made watched

theorem mem_errorTasks {job : Job count} {stages : List (Fin count)}
    (among : job ∈ env.errorTasks stages) : ∃ stage ∈ stages, job = .consumer stage .stderr := by
  obtain ⟨stage, staged, among⟩ := List.mem_flatMap.mp among
  refine ⟨stage, staged, ?_⟩
  unfold Env.captureTask at among
  split at among
  · exact List.mem_singleton.mp among
  · cases among

theorem heartbeat_not_mem_errorTasks (stages : List (Fin count)) :
    .heartbeat ∉ env.errorTasks stages := by
  intro among
  obtain ⟨_, _, wrong⟩ := mem_errorTasks among
  cases wrong

theorem Ledger.Stopped.left {stage : Fin count} {stages : List (Fin count)}
    (fresh : stage ∉ created)
    (stopped : ledger.Stopped env created (env.errorTasks created) stage created.isEmpty
      stages.isEmpty) :
    ledger.Left env (env.cleansStages created (stage :: stages)) := by
  have before : (env.watches && !created.isEmpty) = true → created ≠ [] := by
    intro watched empty
    simp [empty] at watched
  have after : env.watches = true → created ++ [stage] ≠ [] := by simp
  have recorded : Job.heartbeat ∉ env.errorTasks created ∧ Job.heartbeat ∉ ([] : List (Job count)) :=
    ⟨heartbeat_not_mem_errorTasks created, List.not_mem_nil⟩
  cases stopped with
  | stranded fails strands stranded =>
      exact .inl ⟨by simp [Env.cleansStages, fails, strands], stranded⟩
  | unspawned fails awaited staged =>
      exact .inr ⟨_, _, _, _, staged, before, recorded, by simp,
        by simp [Env.cleansStages, fails, awaited]⟩
  | unstarted spawns fails staged =>
      exact .inr ⟨_, _, _, _, staged, by simp, recorded, by simp,
        by simp [Env.cleansStages, spawns, fails]⟩
  | uncaptured spawns starts fails staged =>
      exact .inr ⟨_, _, _, _, staged, after, recorded, by simp,
        by simp [Env.cleansStages, spawns, starts, fails]⟩
  | unrecorded spawns starts captures fails staged =>
      have alone : env.captureTask stage .stderr = env.errorTasks [stage] := by
        simp [Env.errorTasks]
      refine .inr ⟨_, _, _, _, staged, after, ⟨recorded.1, ?_⟩, ?_,
        by simp [Env.cleansStages, spawns, starts, captures, fails]⟩
      · rw [alone]
        exact heartbeat_not_mem_errorTasks [stage]
      · intro job pending earlier
        rw [alone] at pending
        obtain ⟨this, among, rfl⟩ := mem_errorTasks pending
        obtain ⟨other, before, same⟩ := mem_errorTasks earlier
        cases same
        exact fresh (List.mem_singleton.mp among ▸ before)

theorem spawnPipelineStages_ends (stages : List (Fin count)) :
    ∀ {created : List (Fin count)} {ledger : Ledger count}, (created ++ stages).Nodup →
      ledger.Staged created (env.errorTasks created) [] (env.watches && !created.isEmpty) →
      Ends (spawnPipelineStages env created.isEmpty stages)
        (fun _ _ => env.cleansStages created stages = true)
        (fun _ after => after.Left env (env.cleansStages created stages)) ledger := by
  induction stages with
  | nil => exact fun _ _ => Ends.returns rfl
  | cons stage stages induction =>
      intro created ledger distinct staged
      have fresh : stage ∉ created := by
        intro among
        exact (List.nodup_append.mp distinct).2.2 stage among stage List.mem_cons_self rfl
      apply Ends.bind
      apply (spawnStage_ends staged).mono
      · rintro _ after ⟨spawns, starts, captures, output, staged⟩
        have follows : env.cleansStages created (stage :: stages) =
            env.cleansStages (created ++ [stage]) stages := by
          simp [Env.cleansStages, spawns, starts, captures, output]
        rw [follows]
        cases stages with
        | nil => exact Ends.returns rfl
        | cons next stages =>
            have staged := staged rfl
            have first : (created ++ [stage]).isEmpty = false := by simp
            have tasks : env.errorTasks created ++ env.captureTask stage .stderr =
                env.errorTasks (created ++ [stage]) := by simp [Env.errorTasks]
            rw [tasks] at staged
            have ends := @induction (created ++ [stage]) after
              (by simpa only [List.append_assoc, List.singleton_append] using distinct)
              (by simpa only [first, Bool.not_false, Bool.and_true] using staged)
            rwa [first] at ends
      · exact fun _ _ stopped => stopped.left fresh

/-- What is left of a pipeline whose start has failed: the children that no signal
reached, or all of them, and the tasks that have not been settled. -/
structure Ledger.Remains (children : Fin count → Bool) (tasks : Job count → Bool)
    (sinks : Bool) (ledger : Ledger count) : Prop where
  child : ∀ stage, (ledger.child stage).isSettled = !children stage
  task : ∀ job, ledger.task job = .live ↔ tasks job = true
  sink : ∀ stage stream, ledger.sink stage stream = true →
    sinks = true ∧ tasks (.consumer stage stream) = true
  opened : ledger.opened = []
  closes : ∀ stream, ledger.closes stream = 0

theorem Ledger.Remains.clean_iff {children : Fin count → Bool} {tasks : Job count → Bool}
    {sinks : Bool} (remains : ledger.Remains children tasks sinks) :
    ledger.Clean env ↔ (∀ stage, children stage = false) ∧ ∀ job, tasks job = false := by
  constructor
  · intro clean
    refine ⟨fun stage => ?_, fun job => ?_⟩
    · simpa only [clean.children stage, Bool.true_eq, Bool.not_eq_true'] using
        remains.child stage
    · rw [← Bool.not_eq_true, ← remains.task job]
      exact clean.tasks job
  · rintro ⟨children, tasks⟩
    refine {
      children := ?children
      tasks := ?tasks
      sinks := ?sinks
      owned := ?owned
      closed := ?closed }
    case children =>
      intro stage
      rw [remains.child stage, children stage]
      rfl
    case tasks =>
      intro job live
      have wrong := (remains.task job).mp live
      rw [tasks job] at wrong
      cases wrong
    case sinks =>
      intro stage stream
      cases held : ledger.sink stage stream with
      | false => rfl
      | true =>
          have wrong := (remains.sink stage stream held).2
          rw [tasks] at wrong
          cases wrong
    case owned =>
      intro stream
      simp [remains.opened]
    case closed =>
      intro stream
      simp [remains.opened, remains.closes stream]

theorem stopIdleMonitor_staged (consumers : .heartbeat ∉ jobs ∧ .heartbeat ∉ made)
    (staged : ledger.Staged created jobs made watched) :
    Ends (stopIdleMonitor env)
      (fun _ after => (!watched || (env.raises .heartbeat).isNone) = true ∧
        after.Staged created jobs made false)
      (fun _ after => (!watched || (env.raises .heartbeat).isNone) = false ∧
        after.Staged created jobs made false) ledger := by
  have runs : ledger.task .heartbeat = .live ↔ watched = true := by
    rw [staged.tasks .heartbeat]
    simp [consumers.1, consumers.2]
  apply Ends.bind
  apply Ends.reads
  cases watched with
  | false =>
      have stopped : ledger.task .heartbeat ≠ .live := by simp [runs]
      rw [if_neg stopped]
      exact Ends.returns ⟨rfl, staged⟩
  | true =>
      rw [if_pos (runs.mpr rfl)]
      have settles : (left (settle [.heartbeat]) ledger).Staged created jobs made false :=
        { staged with
          tasks := by
            intro job
            change (if job ∈ [Job.heartbeat] then (ledger.task job).settle
              else ledger.task job) = .live ↔ _
            by_cases same : job = .heartbeat
            · subst same
              rw [if_pos (List.mem_singleton_self _)]
              simp only [consumers.1, consumers.2, Bool.false_eq_true, and_false, or_false,
                iff_false]
              cases ledger.task .heartbeat <;> exact fun wrong => (by cases wrong)
            · rw [if_neg (by simpa using same), staged.tasks job]
              simp [same]
          sinks := by
            intro stage stream held
            exact staged.sinks stage stream held }
      apply Ends.bind
      apply Ends.updates
      apply Ends.bind
      apply Ends.updates
      have staged : (left (suspend env) (left (settle [.heartbeat]) ledger)).Staged
          created jobs made false := settles.suspend
      exact call_staged staged

theorem terminate_remains (staged : ledger.Staged created jobs made false) :
    (left (terminate env created) ledger).Remains
      (fun stage => decide (stage ∈ created) && !env.reaches stage)
      (fun job => decide (job ∈ jobs ∨ job ∈ made)) true := by
  have suspended : (left (suspend env) ledger).Staged created jobs made false :=
    staged.suspend
  have tasks : ∀ job, ledger.task job = .live ↔ decide (job ∈ jobs ∨ job ∈ made) = true := by
    intro job
    rw [staged.tasks job]
    simp
  refine {
    child := ?_
    task := tasks
    sink := ?_
    opened := staged.opened
    closes := staged.closes }
  · intro stage
    change (if stage ∈ created ∧ env.reaches stage = true then (ledger.child stage).reap
      else ledger.child stage).isSettled = _
    rw [staged.child stage]
    by_cases among : stage ∈ created <;> cases reached : env.reaches stage <;>
      simp [among, Child.reap, Child.isSettled]
  · intro stage stream held
    exact ⟨rfl, (tasks _).mp (suspended.sinks stage stream held)⟩

theorem cancelStageTasksAndSinks_remains {children : Fin count → Bool}
    {tasks : Job count → Bool} {sinks : Bool} (remains : ledger.Remains children tasks sinks) :
    (left (cancelStageTasksAndSinks env jobs) ledger).Remains children
      (fun job => tasks job && decide (job ∉ jobs)) false :=
  { remains with
    task := by
      intro job
      change (if job ∈ jobs then (ledger.task job).settle else ledger.task job) = .live ↔ _
      by_cases among : job ∈ jobs
      · rw [if_pos among]
        simp only [among, not_true_eq_false, decide_false, Bool.and_false,
          Bool.false_eq_true, iff_false]
        cases ledger.task job <;> exact fun wrong => (by cases wrong)
      · rw [if_neg among, remains.task job]
        simp [among]
    sink := fun _ _ wrong => (by cases wrong) }

theorem all_reached_iff :
    (∀ stage, (decide (stage ∈ created) && !env.reaches stage) = false) ↔
      created.all env.reaches = true := by
  simp only [Bool.and_eq_false_iff, decide_eq_false_iff_not, Bool.not_eq_false',
    List.all_eq_true]
  exact forall_congr' fun stage => by tauto

/-- A cancellation of the termination skips the tasks, if there are any. -/
def Env.settlesStages (env : Env count) (created : List (Fin count)) (staged made : List (Job count)) :
    Bool :=
  created.all env.reaches && (made.isEmpty && (staged.isEmpty || !env.interrupts .terminate))

theorem cleanupSpawnedProcesses_ends (fresh : ∀ job ∈ made, job ∉ jobs)
    (staged : ledger.Staged created jobs made false) :
    Ends (cleanupSpawnedProcesses env)
      (fun _ after => after.Clean env ↔ env.settlesStages created jobs made = true)
      (fun _ after => after.Clean env ↔ env.settlesStages created jobs made = true)
      ledger := by
  have terminated : (left (terminate env created) ledger).Remains
      (fun stage => decide (stage ∈ created) && !env.reaches stage)
      (fun job => decide (job ∈ jobs ∨ job ∈ made)) true :=
    terminate_remains staged
  apply Ends.bind
  apply Ends.reads
  rw [staged.processes, staged.recorded]
  apply Ends.bind
  unfold shieldedCleanup Env.interruption
  cases interrupted : env.interrupts .terminate with
  | true =>
      change (left (terminate env created) ledger).Clean env ↔ _
      rw [terminated.clean_iff, all_reached_iff]
      simp [Env.settlesStages, interrupted, List.eq_nil_iff_forall_not_mem, and_comm,
        forall_and]
  | false =>
      have stops : Ends (terminate env created)
          (fun _ after => after = left (terminate env created) ledger) (fun _ _ => False)
          ledger := by
        apply Ends.bind
        apply Ends.updates
        exact Ends.updates rfl
      apply stops.mono
      · rintro _ after rfl
        have settled : (left (cancelStageTasksAndSinks env jobs)
            (left (terminate env created) ledger)).Remains _ _ false :=
          cancelStageTasksAndSinks_remains terminated
        have clean : (left (cancelStageTasksAndSinks env jobs)
            (left (terminate env created) ledger)).Clean env ↔
            env.settlesStages created jobs made = true := by
          rw [settled.clean_iff, all_reached_iff]
          simp only [Env.settlesStages, interrupted, Bool.not_false, Bool.or_true,
            Bool.and_true, Bool.and_eq_true, List.isEmpty_iff]
          refine and_congr_right fun _ => ?_
          rw [List.eq_nil_iff_forall_not_mem]
          refine forall_congr' fun job => ?_
          have apart := fresh job
          by_cases pending : job ∈ made <;> simp [pending, apart]
        have ends : Ends (cancelStageTasksAndSinks env jobs)
            (fun _ after => after.Clean env ↔ env.settlesStages created jobs made = true)
            (fun _ after => after.Clean env ↔ env.settlesStages created jobs made = true)
            (left (terminate env created) ledger) :=
          ends_left_iff.mpr clean
        exact Ends.shield ends fun _ _ => clean
      · exact fun _ _ wrong => (by cases wrong)

theorem stopIdleMonitor_stranded (stranded : ledger.Stranded) :
    Ends (stopIdleMonitor env) (fun _ after => after.Stranded) (fun _ after => after.Stranded)
      ledger := by
  apply Ends.bind
  apply Ends.reads
  split
  · apply Ends.bind
    apply Ends.updates
    apply Ends.bind
    apply Ends.updates
    exact call_ends (fun _ => stranded) (fun _ _ => stranded)
  · exact Ends.returns stranded

/-- The signals of a termination are for the children that are still running. -/
theorem terminate_stranded (stranded : ledger.Stranded) (stages : List (Fin count)) :
    Ends (terminate env stages) (fun _ after => after.Stranded) (fun _ after => after.Stranded)
      ledger := by
  obtain ⟨stage, killed⟩ := stranded
  apply Ends.bind
  apply Ends.updates
  apply Ends.updates
  refine ⟨stage, ?_⟩
  change (if stage ∈ stages ∧ env.reaches stage = true then (ledger.child stage).reap
    else ledger.child stage) = _
  rw [killed]
  split <;> rfl

theorem cleanupSpawnedProcesses_stranded (stranded : ledger.Stranded) :
    Ends (cleanupSpawnedProcesses env) (fun _ after => after.Stranded)
      (fun _ after => after.Stranded) ledger := by
  apply Ends.bind
  apply Ends.reads
  have terminated := @terminate_stranded count env ledger stranded ledger.processes
  apply Ends.bind
  apply Ends.shield
  · apply terminated.mono
    · intro _ after stranded
      have cancelled : Ends (cancelStageTasksAndSinks env ledger.recorded)
          (fun _ after => after.Stranded) (fun _ after => after.Stranded) after := by
        apply Ends.bind
        apply Ends.updates
        apply Ends.bind
        apply Ends.updates
        exact Ends.updates stranded
      exact Ends.shield cancelled fun _ _ => ends_left_iff.mp cancelled
    · exact fun _ _ stranded => stranded
  · exact fun _ _ => ends_left_iff.mp terminated

/-- Nothing of the cleanup awaits a child that its spawn has stranded. -/
theorem cleanup_stranded {error : Raised} (stranded : ledger.Stranded) :
    Ends (show Step count from do
        stopIdleMonitor env
        cleanupSpawnedProcesses env
        call env .terminals
        throw error)
      (fun _ _ => False) (fun _ after => after.Stranded) ledger := by
  apply Ends.bind
  apply (stopIdleMonitor_stranded stranded).mono
  · intro _ stopped stranded
    apply Ends.bind
    apply (cleanupSpawnedProcesses_stranded stranded).mono
    · intro _ cleaned stranded
      apply Ends.bind
      exact call_ends (fun _ => Ends.raises stranded) (fun _ _ => stranded)
    · exact fun _ _ stranded => stranded
  · exact fun _ _ stranded => stranded

/-- A pipeline whose start raises leaves nothing behind just where it is reclaimed from
the stage that stopped it. -/
theorem spawnPipelineProcesses_cleans :
    Ends (spawnPipelineProcesses env) (fun _ _ => env.cleansPipeline = true)
      (fun _ after => after.Clean env ↔ env.cleansPipeline = true) {} := by
  have distinct : ([] ++ List.finRange count).Nodup := List.nodup_finRange count
  have initially : Ledger.Staged [] (env.errorTasks []) [] (env.watches && !true)
      ({} : Ledger count) := by
    rw [Bool.not_true, Bool.and_false]
    exact staged_initially
  apply Ends.handle
  apply (spawnPipelineStages_ends _ distinct initially).mono
  · exact fun _ _ cleans => cleans
  · rintro error stopped (⟨uncleaned, stranded⟩ |
      ⟨created, jobs, made, watched, reclaimable⟩)
    · have uncleaned : env.cleansPipeline = false := uncleaned
      apply (cleanup_stranded stranded).mono
      · exact fun _ _ wrong => (by cases wrong)
      · intro _ after stranded
        simpa [uncleaned] using stranded.not_clean
    have decides : env.cleansPipeline = ((!watched || (env.raises .heartbeat).isNone) &&
        env.settlesStages created jobs made) :=
      reclaimable.decides
    apply Ends.bind
    apply (stopIdleMonitor_staged reclaimable.consumers reclaimable.staged).mono
    · intro _ after unwatched
      have cleans : env.cleansPipeline = env.settlesStages created jobs made := by
        rw [decides, unwatched.1, Bool.true_and]
      rw [cleans]
      apply Ends.bind
      apply (cleanupSpawnedProcesses_ends reclaimable.fresh unwatched.2).mono
      · intro _ reclaimed clean
        apply Ends.bind
        exact call_ends (fun _ => Ends.raises clean) (fun _ _ => clean)
      · exact fun _ _ clean => clean
    · intro failure after cut
      have uncleaned : env.cleansPipeline = false := by
        rw [decides, cut.1, Bool.false_and]
      have watches : watched = true := by
        cases watched
        · cases cut.1
        · rfl
      obtain ⟨stage, rest, stages⟩ := List.exists_cons_of_ne_nil (reclaimable.children watches)
      have lives : after.child stage = .live := by
        rw [cut.2.child stage, if_pos (by simp [stages])]
      have left := @Ledger.Clean.not_of_child count env after stage (by rw [lives]; rfl)
      simp [uncleaned, left]

/-! Every entry. -/

/-- Where the entry raises, nothing is left behind. -/
def LeavesNothing (env : Env count) (entry : Step count) : Prop :=
  Ends entry (fun _ _ => True) (fun _ after => after.Clean env) {}

theorem leavesNothing_iff {entry : Step count} {cleans : Bool}
    (ends : Ends entry (fun _ _ => cleans = true)
      (fun _ after => after.Clean env ↔ cleans = true) {}) :
    LeavesNothing env entry ↔ cleans = true := by
  apply ends_iff
  apply ends.mono
  · intro _ _ returned
    exact ⟨fun _ => returned, fun _ => trivial⟩
  · exact fun _ _ clean => clean

/-- A failed start leaves nothing behind just under the condition of its entry, of a single
child or of a pipeline. -/
theorem leavesNothing_iff_cleans (single : Env 1) (env : Env count) :
    (LeavesNothing single (runSubprocessWithoutStreams single) ↔
        single.cleansWithoutStreams = true) ∧
      (LeavesNothing single (runSubprocessWithStreams single) ↔
        single.cleansWithStreams = true) ∧
      (LeavesNothing single (startHandleRun single) ↔ single.cleansHandle = true) ∧
      (LeavesNothing single (startLineStreamRun single) ↔ single.cleansLines = true) ∧
      (LeavesNothing env (spawnPipelineProcesses env) ↔ env.cleansPipeline = true) := by
  refine ⟨?_, ?_, ?_, ?_, ?_⟩
  · exact leavesNothing_iff runSubprocessWithoutStreams_cleans
  · exact leavesNothing_iff runSubprocessWithStreams_cleans
  · exact leavesNothing_iff startHandleRun_cleans
  · exact leavesNothing_iff startLineStreamRun_cleans
  · exact leavesNothing_iff spawnPipelineProcesses_cleans

/-- A child with no pipe is spawned, and a hook raises on its start. -/
def hookRaises : Env 1 where
  wait4 := true
  binding := fun _ => .inherited
  feeds := false
  idle := false
  consumes := fun _ => false
  raises := fun
    | .start _ => some .failed
    | _ => none
  strands := fun _ => false
  interrupts := fun _ => false
  reaches := fun _ => true
  spills := fun _ _ => false

/-- The direct run leaves the child that a handle terminates. -/
theorem hookRaises_leaves_child :
    ¬LeavesNothing hookRaises (runSubprocessWithoutStreams hookRaises) ∧
      LeavesNothing hookRaises (startHandleRun hookRaises) := by
  constructor
  · intro clean
    have condition := (leavesNothing_iff runSubprocessWithoutStreams_cleans).mp clean
    exact absurd condition (by decide)
  · exact (leavesNothing_iff startHandleRun_cleans).mpr (by decide)

end Cuprum.Startup
