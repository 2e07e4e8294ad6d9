import Cuprum.Startup.Entries

namespace Cuprum.Startup

open Cuprum.Effect

section General

variable {count : Nat} {env : Env count} {ledger : Ledger count}

/-- Nothing is left behind: no child runs or is left to await, nor is a task, no capture
holds a file, and just the descriptors that were opened, for owned paths, have been
closed. -/
structure Ledger.Clean (env : Env count) (ledger : Ledger count) : Prop where
  children : ∀ stage, (ledger.child stage).isSettled = true
  tasks : ∀ job, ledger.task job ≠ .live
  sinks : ∀ stage stream, ledger.sink stage stream = false
  owned : ∀ stream,
    ledger.opened.count stream ≤ if env.binding stream = .ownedPath then 1 else 0
  closed : ∀ stream, ledger.closes stream = ledger.opened.count stream

def Env.launches (env : Env count) : Bool :=
  !env.idle || (env.raises .launch).isNone

/-- The heartbeat runs once it has been launched. -/
def Env.watches (env : Env count) : Bool :=
  env.idle && (env.raises .launch).isNone

theorem Ledger.Clean.not_of_child {stage : Fin count}
    (unsettled : (ledger.child stage).isSettled = false) : ¬ledger.Clean env := by
  intro clean
  rw [clean.children stage] at unsettled
  cases unsettled

theorem Ledger.Clean.not_of_task {job : Job count} (live : ledger.task job = .live) :
    ¬ledger.Clean env :=
  fun clean => clean.tasks job live

theorem call_ends {site : Site count} {returned : Unit → Ledger count → Prop}
    {raised : Raised → Ledger count → Prop} (returns : env.raises site = none → returned () ledger)
    (raises : ∀ error, env.raises site = some error → raised error ledger) :
    Ends (call env site) returned raised ledger :=
  Ends.attempt returns raises

theorem call_answers {site : Site count} :
    Ends (call env site)
      (fun _ after => after = ledger ∧ (env.raises site).isNone = true)
      (fun _ after => after = ledger ∧ (env.raises site).isNone = false) ledger := by
  apply call_ends
  · intro answer
    exact ⟨rfl, by rw [answer]; rfl⟩
  · intro error answer
    exact ⟨rfl, by rw [answer]; rfl⟩

/-- A spawn that raises leaves no child, or a killed one. -/
theorem createSubprocessExec_ends {site : Site count} {stage : Fin count} :
    Ends (createSubprocessExec env site stage)
      (fun _ after => after = ledger ∧ (env.raises site).isNone = true)
      (fun _ after => (env.raises site).isNone = false ∧
        (env.strands site = false ∧ after = ledger ∨
          env.strands site = true ∧ after = { ledger with
            child := Function.update ledger.child stage .killed })) ledger := by
  apply Ends.handle
  apply call_answers.mono (fun _ _ returned => returned)
  rintro error after ⟨rfl, fails⟩
  apply Ends.bind
  unfold abandonSpawn
  cases strands : env.strands site with
  | false => exact Ends.returns (Ends.raises ⟨fails, .inl ⟨rfl, rfl⟩⟩)
  | true => exact Ends.updates (Ends.raises ⟨fails, .inr ⟨rfl, rfl⟩⟩)

end General

variable {env : Env 1}

def Env.ownedStreams (env : Env 1) : List Stream :=
  [Stream.stdout, .stderr].filter fun stream => env.binding stream = .ownedPath

/-- The child runs, and its copies of the descriptors are its own. -/
def Env.spawned (env : Env 1) : Ledger 1 where
  child := fun _ => .live
  opened := env.ownedStreams
  closes := fun stream => env.ownedStreams.count stream

def Env.opensPath (env : Env 1) (stream : Stream) : Bool :=
  env.binding stream != .ownedPath || (env.raises (.openPath stream)).isNone

def Env.flushes (env : Env 1) (stream : Stream) : Bool :=
  env.binding stream != .borrowed || (env.raises (.flush stream)).isNone

/-- The entry comes to its spawn. -/
def Env.reachesSpawn (env : Env 1) : Bool :=
  (env.opensPath .stdout && env.opensPath .stderr) &&
    (env.flushes .stdout && env.flushes .stderr)

/-- The child is created. -/
def Env.forks (env : Env 1) : Bool :=
  env.reachesSpawn && (env.raises .popen).isNone

/-- The spawn of asyncio leaves a killed child behind. -/
def Env.strandsChild (env : Env 1) : Bool :=
  env.reachesSpawn && (!env.wait4 && ((env.raises .popen).isSome && env.strands .popen))

/-- What a spawn that raises has created is awaited: a signal reaches it, or the spawn
awaits it. -/
def Env.reclaimsChild (env : Env 1) : Bool :=
  if env.forks then env.reaches only else !env.strandsChild

/-- The child is created and its pipes are attached. -/
def Env.spawns (env : Env 1) : Bool :=
  env.forks && (!env.wait4 || (env.raises .connectPipes).isNone)

theorem ownedStreams_count (stream : Stream) :
    env.ownedStreams.count stream ≤ if env.binding stream = .ownedPath then 1 else 0 := by
  cases stream <;> cases first : env.binding .stdout <;> cases second : env.binding .stderr <;>
    simp [Env.ownedStreams, first, second]

theorem emitOwnedPathOpen_ends {stream : Stream} {ledger : Ledger 1} :
    Ends (emitOwnedPathOpen env stream)
      (fun _ after => env.opensPath stream = true ∧
        after = { ledger with opened :=
          ledger.opened ++ [stream].filter fun other => env.binding other = .ownedPath })
      (fun _ after => env.opensPath stream = false ∧ after = ledger) ledger := by
  unfold emitOwnedPathOpen
  by_cases owned : env.binding stream = .ownedPath
  · simp only [if_pos owned]
    apply Ends.bind
    apply call_ends
    · intro opens
      apply Ends.updates
      exact ⟨by simp [Env.opensPath, opens], by simp [owned]⟩
    · intro error opens
      exact ⟨by simp [Env.opensPath, owned, opens], rfl⟩
  · simp only [if_neg owned]
    apply Ends.returns
    exact ⟨by simp [Env.opensPath, owned], by simp [owned]⟩

/-- A ledger on which only descriptors have been opened, and closed. -/
theorem Ledger.Clean.of_closed {opened : List Stream} {closes : Stream → Nat}
    (owned : ∀ stream,
      opened.count stream ≤ if env.binding stream = .ownedPath then 1 else 0)
    (closed : ∀ stream, closes stream = opened.count stream) :
    Ledger.Clean env { opened := opened, closes := closes } where
  children := fun _ => rfl
  tasks := fun _ wrong => (by cases wrong)
  sinks := fun _ _ => rfl
  owned := owned
  closed := closed

/-- What has been opened is closed again where a later path cannot be. -/
theorem openOwnedStdio_ends :
    Ends (openOwnedStdio env)
      (fun _ after => (env.opensPath .stdout && env.opensPath .stderr) = true ∧
        after = { opened := env.ownedStreams })
      (fun _ after => (env.opensPath .stdout && env.opensPath .stderr) = false ∧
        after.Clean env) {} := by
  apply Ends.handle
  apply Ends.bind
  apply emitOwnedPathOpen_ends.mono
  · rintro _ first ⟨opensFirst, rfl⟩
    apply emitOwnedPathOpen_ends.mono
    · rintro _ both ⟨opensSecond, rfl⟩
      refine ⟨by rw [opensFirst, opensSecond]; rfl, ?_⟩
      simp only [Env.ownedStreams, List.nil_append, ← List.filter_append]
      rfl
    · rintro error after ⟨opensSecond, rfl⟩
      apply Ends.bind
      apply Ends.updates
      refine Ends.raises ⟨by rw [opensSecond, Bool.and_false], ?_⟩
      apply Ledger.Clean.of_closed
      · intro stream
        cases stream <;> by_cases owned : env.binding .stdout = .ownedPath <;> simp [owned]
      · simp
  · rintro error after ⟨opensFirst, rfl⟩
    apply Ends.bind
    apply Ends.updates
    refine Ends.raises ⟨by rw [opensFirst, Bool.false_and], ?_⟩
    apply Ledger.Clean.of_closed
    · simp
    · simp

theorem flushBorrowed_ends {stream : Stream} {ledger : Ledger 1} :
    Ends (flushBorrowed env stream)
      (fun _ after => env.flushes stream = true ∧ after = ledger)
      (fun _ after => env.flushes stream = false ∧ after = ledger) ledger := by
  unfold flushBorrowed
  by_cases borrowed : env.binding stream = .borrowed
  · simp only [if_pos borrowed]
    apply call_ends
    · intro flushes
      exact ⟨by simp [Env.flushes, flushes], rfl⟩
    · intro error flushes
      exact ⟨by simp [Env.flushes, borrowed, flushes], rfl⟩
  · simp only [if_neg borrowed]
    exact Ends.returns ⟨by simp [Env.flushes, borrowed], rfl⟩

theorem settleSpawnedChild_ends {ledger : Ledger 1} {error : Raised}
    {returned : Unit → Ledger 1 → Prop} {raised : Raised → Ledger 1 → Prop}
    (holds : ∀ error, raised error (left (terminate env [only]) ledger)) :
    Ends (do settleSpawnedChild env; throw error) returned raised ledger := by
  have comes : Ends (terminate env [only]) (fun _ after => ∀ error, raised error after)
      (fun _ after => ∀ error, raised error after) ledger :=
    ends_left_iff.mpr holds
  apply Ends.bind
  apply Ends.shield
  · apply comes.mono
    · exact fun _ _ holds => Ends.raises (holds error)
    · exact fun error _ holds => holds error
  · exact fun error _ => holds error

theorem left_terminate {ledger : Ledger 1} :
    left (terminate env [only]) ledger = { ledger with
      sink := fun stage stream => ledger.sink stage stream ||
        (decide (ledger.task (.consumer stage stream) = .live) && env.spills stage stream)
      child := fun stage =>
        if env.reaches only = true then (ledger.child stage).reap else ledger.child stage } := by
  have all : ∀ stage : Fin 1, stage = only := fun stage => Subsingleton.elim stage only
  change { ledger with
    sink := _
    child := _ } = _
  congr 1
  funext stage
  simp [all stage]

/-- Stopping the child cleans up after an entry of which nothing else is left. -/
theorem clean_left_terminate_iff {ledger : Ledger 1}
    (live : ledger.child only = .live) (tasks : ∀ job, ledger.task job ≠ .live)
    (sinks : ∀ stage stream, ledger.sink stage stream = false)
    (owned : ∀ stream,
      ledger.opened.count stream ≤ if env.binding stream = .ownedPath then 1 else 0)
    (closed : ∀ stream, ledger.closes stream = ledger.opened.count stream) :
    (left (terminate env [only]) ledger).Clean env ↔ env.reaches only = true := by
  have all : ∀ stage : Fin 1, stage = only := fun stage => Subsingleton.elim stage only
  rw [left_terminate]
  constructor
  · intro clean
    by_contra unreached
    have settled := clean.children only
    simp only [if_neg unreached, live] at settled
    cases settled
  · intro reached
    refine {
      children := ?_
      tasks := tasks
      sinks := ?_
      owned := owned
      closed := closed }
    · intro stage
      rw [all stage]
      simp only [reached, if_true, live]
      rfl
    · intro stage stream
      simp [sinks stage stream, tasks]

theorem spawned_closed (stream : Stream) :
    env.spawned.closes stream = env.spawned.opened.count stream :=
  rfl

theorem spawned_terminate_iff :
    (left (terminate env [only]) env.spawned).Clean env ↔ env.reaches only = true :=
  clean_left_terminate_iff rfl (fun _ wrong => (by cases wrong)) (fun _ _ => rfl)
    ownedStreams_count spawned_closed

/-- The descriptors are closed before anything was made for the child. -/
theorem openStdio_closed_clean :
    (left closeOwnedStdio ({ opened := env.ownedStreams } : Ledger 1)).Clean env :=
  Ledger.Clean.of_closed ownedStreams_count fun _ => Nat.zero_add _

/-- The stdio of the spawn is closed whatever becomes of it. -/
theorem left_closeOwnedStdio (child : Fin 1 → Child) :
    left closeOwnedStdio ({ child := child, opened := env.ownedStreams } : Ledger 1) =
      { env.spawned with child := child } := by
  have counts : (fun stream => 0 + env.ownedStreams.count stream) =
      fun stream => env.ownedStreams.count stream := by
    funext stream
    exact Nat.zero_add _
  change ({
    child := child
    opened := env.ownedStreams
    closes := fun stream => 0 + env.ownedStreams.count stream } : Ledger 1) = _
  rw [counts]
  rfl

theorem spawnWait4Process_ends (reaches : env.reachesSpawn = true) (wait4 : env.wait4 = true) :
    Ends (spawnWait4Process env)
      (fun _ after => env.spawns = true ∧ left closeOwnedStdio after = env.spawned)
      (fun _ after => env.spawns = false ∧
        ((left closeOwnedStdio after).Clean env ↔ env.reclaimsChild = true))
      { opened := env.ownedStreams } := by
  have forks : env.forks = (env.raises .popen).isNone := by
    rw [Env.forks, reaches, Bool.true_and]
  apply Ends.bind
  apply call_ends
  · intro popen
    apply Ends.bind
    apply Ends.updates
    apply Ends.handle
    apply call_ends
    · intro connects
      exact ⟨by simp [Env.spawns, forks, popen, connects], left_closeOwnedStdio _⟩
    · intro error connects
      apply settleSpawnedChild_ends
      intro error
      refine ⟨by simp [Env.spawns, wait4, connects], ?_⟩
      change (left (terminate env [only]) (left closeOwnedStdio
        { child := fun _ => .live, opened := env.ownedStreams })).Clean env ↔ _
      rw [left_closeOwnedStdio]
      change (left (terminate env [only]) env.spawned).Clean env ↔ _
      rw [spawned_terminate_iff, Env.reclaimsChild, forks, popen]
      rfl
  · intro error popen
    refine ⟨by simp [Env.spawns, forks, popen], ?_⟩
    simp [Env.reclaimsChild, Env.strandsChild, forks, popen, wait4, openStdio_closed_clean]

theorem spawnDirectProcess_ends (reaches : env.reachesSpawn = true) :
    Ends (spawnDirectProcess env)
      (fun _ after => env.spawns = true ∧ left closeOwnedStdio after = env.spawned)
      (fun _ after => env.spawns = false ∧
        ((left closeOwnedStdio after).Clean env ↔ env.reclaimsChild = true))
      { opened := env.ownedStreams } := by
  unfold spawnDirectProcess
  cases wait4 : env.wait4 with
  | true => exact spawnWait4Process_ends reaches wait4
  | false =>
      have forks : env.forks = (env.raises .popen).isNone := by
        rw [Env.forks, reaches, Bool.true_and]
      have strands : env.strandsChild = ((env.raises .popen).isSome && env.strands .popen) := by
        rw [Env.strandsChild, reaches, wait4]
        rfl
      apply Ends.bind
      apply createSubprocessExec_ends.mono
      · rintro _ after ⟨rfl, popen⟩
        apply Ends.updates
        exact ⟨by simp [Env.spawns, forks, popen, wait4], left_closeOwnedStdio _⟩
      · rintro error after ⟨fails, ended⟩
        have raised : (env.raises .popen).isSome = true := by
          simpa using fails
        refine ⟨by rw [Env.spawns, forks, fails, Bool.false_and], ?_⟩
        rw [Env.reclaimsChild, forks, fails, strands, raised, Bool.true_and]
        rcases ended with ⟨awaited, rfl⟩ | ⟨stranded, rfl⟩
        · simp [awaited, openStdio_closed_clean]
        · have killed : ¬(left closeOwnedStdio ({
              child := Function.update (fun _ => .absent) only .killed
              opened := env.ownedStreams } : Ledger 1)).Clean env := by
            rw [left_closeOwnedStdio]
            apply @Ledger.Clean.not_of_child 1 env _ only
            simp [Child.isSettled]
          simpa [stranded] using killed

/-- A spawn that raises leaves a child behind only where it was made and no signal
reaches it, or where it was killed and is not awaited. -/
theorem spawnSubprocess_ends :
    Ends (spawnSubprocess env)
      (fun _ after => after = env.spawned ∧ env.spawns = true)
      (fun _ after => env.spawns = false ∧
        (after.Clean env ↔ env.reclaimsChild = true)) {} := by
  have unreached : ∀ after : Ledger 1, env.reachesSpawn = false → after.Clean env →
      env.spawns = false ∧ (after.Clean env ↔ env.reclaimsChild = true) := by
    intro after unreached clean
    have forks : env.forks = false := by rw [Env.forks, unreached, Bool.false_and]
    have strands : env.strandsChild = false := by
      rw [Env.strandsChild, unreached, Bool.false_and]
    refine ⟨by rw [Env.spawns, forks, Bool.false_and], ?_⟩
    simp [Env.reclaimsChild, forks, strands, clean]
  apply Ends.bind
  apply openOwnedStdio_ends.mono
  · rintro _ opened ⟨opens, rfl⟩
    apply Ends.ensure
    have body : Ends (do flushBorrowedStdio env; spawnDirectProcess env)
        (fun _ after => env.spawns = true ∧ left closeOwnedStdio after = env.spawned)
        (fun _ after => env.spawns = false ∧
          ((left closeOwnedStdio after).Clean env ↔ env.reclaimsChild = true))
        { opened := env.ownedStreams } := by
      have unflushed : (env.flushes .stdout && env.flushes .stderr) = false →
          env.reachesSpawn = false := by
        intro fails
        rw [Env.reachesSpawn, fails, Bool.and_false]
      apply Ends.bind
      apply Ends.bind
      apply flushBorrowed_ends.mono
      · rintro _ after ⟨first, rfl⟩
        apply flushBorrowed_ends.mono
        · rintro _ after ⟨second, rfl⟩
          apply spawnDirectProcess_ends
          rw [Env.reachesSpawn, opens, first, second]
          rfl
        · rintro error after ⟨second, rfl⟩
          exact unreached _ (unflushed (by rw [second, Bool.and_false])) openStdio_closed_clean
      · rintro error after ⟨first, rfl⟩
        exact unreached _ (unflushed (by rw [first, Bool.false_and])) openStdio_closed_clean
    apply body.mono
    · rintro _ after ⟨spawns, closed⟩
      exact Ends.updates ⟨closed, spawns⟩
    · exact fun _ _ raised => Ends.updates raised
  · rintro error after ⟨opens, clean⟩
    exact unreached after (by rw [Env.reachesSpawn, opens, Bool.false_and]) clean

end Cuprum.Startup
