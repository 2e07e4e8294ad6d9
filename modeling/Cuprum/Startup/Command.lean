import Cuprum.Startup.Spawn

namespace Cuprum.Startup

open Cuprum.Effect

variable {env : Env 1} {ledger : Ledger 1}

theorem eq_only (stage : Fin 1) : stage = only :=
  Subsingleton.elim stage only

/-- What an entry with one child holds: its child, its tasks that are not settled, the
streams whose captures may hold a file and the tasks it has recorded. -/
structure Holding where
  child : Child
  tasks : Job 1 → Bool
  sinks : Stream → Bool
  recorded : List (Job 1)

structure Ledger.Holds (env : Env 1) (holding : Holding) (ledger : Ledger 1) : Prop where
  child : ∀ stage, ledger.child stage = holding.child
  tasks : ∀ job, ledger.task job = .live ↔ holding.tasks job = true
  sinks : ∀ stage stream, ledger.sink stage stream = true → holding.sinks stream = true
  recorded : ledger.recorded = holding.recorded
  owned : ∀ stream,
    ledger.opened.count stream ≤ if env.binding stream = .ownedPath then 1 else 0
  closed : ∀ stream, ledger.closes stream = ledger.opened.count stream

/-- The child alone. -/
def Holding.spawned : Holding where
  child := .live
  tasks := fun _ => false
  sinks := fun _ => false
  recorded := []

/-- An entry is clean with the child reaped and nothing else held. -/
def Holding.isClean (holding : Holding) : Prop :=
  holding.child.isSettled = true ∧ (∀ job, holding.tasks job = false) ∧
    ∀ stream, holding.sinks stream = false

variable {holding : Holding}

theorem spawned_holds : env.spawned.Holds env .spawned where
  child := fun _ => rfl
  tasks := by simp [Env.spawned, Holding.spawned]
  sinks := fun _ _ wrong => (by cases wrong)
  recorded := rfl
  owned := ownedStreams_count
  closed := spawned_closed

theorem Ledger.Holds.clean (holds : ledger.Holds env holding) (isClean : holding.isClean) :
    ledger.Clean env where
  children := fun stage => (congrArg Child.isSettled (holds.child stage)).trans isClean.1
  tasks := by
    intro job live
    have wrong := (holds.tasks job).mp live
    rw [isClean.2.1 job] at wrong
    cases wrong
  sinks := by
    intro stage stream
    cases held : ledger.sink stage stream with
    | false => rfl
    | true =>
        have wrong := holds.sinks stage stream held
        rw [isClean.2.2 stream] at wrong
        cases wrong
  owned := holds.owned
  closed := holds.closed

theorem Ledger.Holds.not_clean_child (holds : ledger.Holds env holding)
    (live : holding.child = .live) : ¬ledger.Clean env :=
  Ledger.Clean.not_of_child (congrArg Child.isSettled ((holds.child only).trans live))

theorem Ledger.Holds.not_clean_task (holds : ledger.Holds env holding) {job : Job 1}
    (live : holding.tasks job = true) : ¬ledger.Clean env :=
  Ledger.Clean.not_of_task ((holds.tasks job).mpr live)

section Steps

def Holding.suspend (holding : Holding) : Holding :=
  { holding with sinks := fun stream =>
      holding.sinks stream || holding.tasks (.consumer only stream) }

def Holding.create (holding : Holding) (job : Job 1) : Holding :=
  { holding with tasks := fun other => decide (other = job) || holding.tasks other }

def Holding.settle (holding : Holding) (jobs : List (Job 1)) : Holding :=
  { holding with tasks := fun job => holding.tasks job && decide (job ∉ jobs) }

def Holding.terminate (env : Env 1) (holding : Holding) : Holding :=
  { holding.suspend with
    child := if env.reaches only = true then holding.child.reap else holding.child }

theorem Ledger.Holds.suspend (holds : ledger.Holds env holding) :
    (left (suspend env) ledger).Holds env holding.suspend :=
  { holds with
    sinks := by
      intro stage stream held
      simp only [Holding.suspend, Bool.or_eq_true]
      rcases Bool.or_eq_true_iff.mp held with held | spilt
      · exact .inl (holds.sinks stage stream held)
      · right
        rw [← eq_only stage]
        apply (holds.tasks (.consumer stage stream)).mp
        exact of_decide_eq_true (Bool.and_eq_true_iff.mp spilt).1 }

theorem Ledger.Holds.create (holds : ledger.Holds env holding) (job : Job 1) :
    (left (create job) ledger).Holds env (holding.create job) :=
  { holds with
    tasks := by
      intro other
      change Function.update ledger.task job .live other = .live ↔ _
      by_cases same : other = job
      · subst same
        simp [Holding.create]
      · rw [Function.update_of_ne same, holds.tasks other]
        simp [Holding.create, same] }

theorem Ledger.Holds.settle (holds : ledger.Holds env holding) (jobs : List (Job 1)) :
    (left (settle jobs) ledger).Holds env (holding.settle jobs) :=
  { holds with
    tasks := by
      intro job
      change (if job ∈ jobs then (ledger.task job).settle else ledger.task job) = .live ↔ _
      by_cases among : job ∈ jobs
      · rw [if_pos among]
        simp only [Holding.settle, among, not_true_eq_false, decide_false, Bool.and_false,
          Bool.false_eq_true, iff_false]
        cases ledger.task job <;> exact fun wrong => (by cases wrong)
      · rw [if_neg among, holds.tasks job]
        simp [Holding.settle, among] }

theorem Ledger.Holds.release (holds : ledger.Holds env holding) :
    (left (release : Step 1) ledger).Holds env { holding with sinks := fun _ => false } :=
  { holds with sinks := fun _ _ wrong => (by cases wrong) }

theorem Ledger.Holds.record (holds : ledger.Holds env holding) (jobs : List (Job 1)) :
    (left (record jobs) ledger).Holds env
      { holding with recorded := holding.recorded ++ jobs } :=
  { holds with recorded := congrArg (· ++ jobs) holds.recorded }

theorem Ledger.Holds.terminate (holds : ledger.Holds env holding) :
    (left (terminate env [only]) ledger).Holds env (holding.terminate env) := by
  rw [left_terminate]
  exact { holds.suspend with
    child := by
      intro stage
      simp only [Holding.terminate, holds.child stage] }

end Steps

section Passes

/-- The step returns just where the answer is yes, and changes nothing where it raises. -/
abbrev Passes (env : Env 1) (step : Step 1) (answer : Bool) (holding next : Holding)
    (ledger : Ledger 1) : Prop :=
  Ends step (fun _ after => answer = true ∧ after.Holds env next)
    (fun _ after => answer = false ∧ after.Holds env holding) ledger

theorem call_passes {site : Site 1} (holds : ledger.Holds env holding) :
    Passes env (call env site) (env.raises site).isNone holding holding ledger := by
  apply call_answers.mono
  · rintro _ after ⟨rfl, answer⟩
    exact ⟨answer, holds⟩
  · rintro error after ⟨rfl, answer⟩
    exact ⟨answer, holds⟩

/-- A task is made where it is wanted, unless its making raises. -/
theorem create_passes {wanted : Prop} [Decidable wanted] {site : Site 1} {job : Job 1}
    (holds : ledger.Holds env holding) :
    Passes env
      (if wanted then do
        call env site
        create job
      else
        pure ())
      (!decide wanted || (env.raises site).isNone) holding
      (if wanted then holding.create job else holding) ledger := by
  by_cases want : wanted
  · simp only [want, decide_true, Bool.not_true, Bool.false_or]
    apply Ends.bind
    apply (call_passes holds).mono
    · rintro _ after ⟨answer, holds⟩
      exact Ends.updates ⟨answer, holds.create job⟩
    · exact fun _ _ raised => raised
  · simp only [want, decide_false, Bool.not_false, Bool.true_or]
    exact Ends.returns ⟨rfl, holds⟩

def Env.writes (env : Env 1) : Bool :=
  !env.feeds || (env.raises .writer).isNone

def Env.attaches (env : Env 1) (stream : Stream) : Bool :=
  !decide (env.binding stream = .pipe) || (env.raises (.consumer only stream)).isNone

theorem launchIdleMonitor_passes (holds : ledger.Holds env holding) :
    Passes env (launchIdleMonitor env) env.launches holding
      (if env.idle = true then holding.create .heartbeat else holding) ledger := by
  have passes : Passes env (launchIdleMonitor env)
      (!decide (env.idle = true) || (env.raises .launch).isNone) holding _ ledger :=
    create_passes holds
  simpa only [Env.launches, Bool.decide_eq_true] using passes

theorem spawnStdinWriter_passes (holds : ledger.Holds env holding) :
    Passes env (spawnStdinWriter env) env.writes holding
      (if env.feeds = true then holding.create .writer else holding) ledger := by
  have passes : Passes env (spawnStdinWriter env)
      (!decide (env.feeds = true) || (env.raises .writer).isNone) holding _ ledger :=
    create_passes holds
  simpa only [Env.writes, Bool.decide_eq_true] using passes

theorem spawnConsumer_passes {stream : Stream} (holds : ledger.Holds env holding) :
    Passes env (spawnConsumer env stream) (env.attaches stream) holding
      (if env.binding stream = .pipe then holding.create (.consumer only stream) else holding)
      ledger :=
  create_passes holds

end Passes

section Run

/-- The child runs. -/
def Ledger.Exposed (env : Env 1) (ledger : Ledger 1) : Prop :=
  ∃ holding, ledger.Holds env holding ∧ holding.child = .live

theorem Ledger.Exposed.not_clean (exposed : ledger.Exposed env) : ¬ledger.Clean env := by
  obtain ⟨holding, holds, live⟩ := exposed
  exact holds.not_clean_child live

/-- The step returns just where the answer is yes, and leaves the child running. -/
abbrev Exposes (env : Env 1) (step : Step 1) (answer : Bool) (ledger : Ledger 1) : Prop :=
  Ends step (fun _ after => answer = true ∧ after.Exposed env)
    (fun _ after => answer = false ∧ after.Exposed env) ledger

theorem Passes.exposes {step : Step 1} {answer : Bool} {next : Holding}
    (passes : Passes env step answer holding next ledger) (live : holding.child = .live)
    (still : next.child = .live) : Exposes env step answer ledger :=
  passes.mono (fun _ _ after => ⟨after.1, next, after.2, still⟩)
    (fun _ _ after => ⟨after.1, holding, after.2, live⟩)

theorem Exposes.bind {step next : Step 1} {first second : Bool}
    (exposes : Exposes env step first ledger)
    (follows : ∀ after : Ledger 1, after.Exposed env → Exposes env next second after) :
    Exposes env (do step; next) (first && second) ledger := by
  apply Ends.bind
  apply exposes.mono
  · rintro _ after ⟨rfl, exposed⟩
    exact follows after exposed
  · rintro error after ⟨rfl, exposed⟩
    exact ⟨rfl, exposed⟩

theorem call_exposes {site : Site 1} (exposed : ledger.Exposed env) :
    Exposes env (call env site) (env.raises site).isNone ledger := by
  obtain ⟨holding, holds, live⟩ := exposed
  exact (call_passes holds).exposes live live

theorem launchIdleMonitor_exposes (exposed : ledger.Exposed env) :
    Exposes env (launchIdleMonitor env) env.launches ledger := by
  obtain ⟨holding, holds, live⟩ := exposed
  apply (launchIdleMonitor_passes holds).exposes live
  split <;> exact live

theorem spawnStdinWriter_exposes (exposed : ledger.Exposed env) :
    Exposes env (spawnStdinWriter env) env.writes ledger := by
  obtain ⟨holding, holds, live⟩ := exposed
  apply (spawnStdinWriter_passes holds).exposes live
  split <;> exact live

theorem spawnConsumer_exposes {stream : Stream} (exposed : ledger.Exposed env) :
    Exposes env (spawnConsumer env stream) (env.attaches stream) ledger := by
  obtain ⟨holding, holds, live⟩ := exposed
  apply (spawnConsumer_passes holds).exposes live
  split <;> exact live

/-- The tasks that read and write the streams are made. -/
def Env.owns (env : Env 1) : Bool :=
  env.writes && (env.attaches .stdout && env.attaches .stderr)

theorem buildRunTaskOwnership_exposes (exposed : ledger.Exposed env) :
    Exposes env (buildRunTaskOwnership env) env.owns ledger :=
  (spawnStdinWriter_exposes exposed).bind fun _ exposed =>
    (spawnConsumer_exposes exposed).bind fun _ exposed => spawnConsumer_exposes exposed

/-- What follows a spawn decides whether an entry is clean, and else whether the child
that the spawn has made is reclaimed. -/
def Env.cleansAfter (env : Env 1) (follows : Bool) : Bool :=
  if env.spawns then follows else env.reclaimsChild

/-- An entry that raises is clean just where the answer is yes. -/
abbrev Cleans (env : Env 1) (step : Step 1) (answer : Bool) (ledger : Ledger 1) : Prop :=
  Ends step (fun _ _ => answer = true) (fun _ after => after.Clean env ↔ answer = true) ledger

theorem spawnSubprocess_cleans {next : Step 1} {answer : Bool}
    (follows : Cleans env next answer env.spawned) :
    Cleans env (do spawnSubprocess env; next) (env.cleansAfter answer) {} := by
  apply Ends.bind
  apply spawnSubprocess_ends.mono
  · rintro _ after ⟨rfl, spawns⟩
    simpa only [Cleans, Env.cleansAfter, spawns, if_true] using follows
  · rintro error after ⟨spawns, clean⟩
    rw [clean, Env.cleansAfter, spawns]
    simp

/-- A step that leaves the child running wherever it ends is clean only where it
returns. -/
theorem Exposes.cleans {step : Step 1} {answer : Bool}
    (exposes : Exposes env step answer ledger) : Cleans env step answer ledger := by
  apply exposes.mono
  · exact fun _ _ returned => returned.1
  · rintro error after ⟨rfl, exposed⟩
    simpa using exposed.not_clean

theorem spawned_exposed : env.spawned.Exposed env :=
  ⟨.spawned, spawned_holds, rfl⟩

def Env.cleansWithoutStreams (env : Env 1) : Bool :=
  env.cleansAfter ((env.raises (.start only)).isNone && env.writes)

theorem runSubprocessWithoutStreams_cleans :
    Cleans env (runSubprocessWithoutStreams env) env.cleansWithoutStreams {} := by
  have follows : Exposes env (do call env (.start only); spawnStdinWriter env)
      ((env.raises (.start only)).isNone && env.writes) env.spawned :=
    (call_exposes spawned_exposed).bind fun _ exposed => spawnStdinWriter_exposes exposed
  unfold runSubprocessWithoutStreams startOwnedProcess
  rw [bind_assoc]
  exact spawnSubprocess_cleans follows.cleans

def Env.cleansWithStreams (env : Env 1) : Bool :=
  env.cleansAfter ((env.raises (.start only)).isNone &&
    (env.launches && ((env.raises .prepare).isNone && env.owns)))

/-- The driver is settled wherever the stop ends, and a failed stop is one of a driver
that ran. -/
theorem stopIdleMonitor_ends (holds : ledger.Holds env holding) :
    Ends (stopIdleMonitor env)
      (fun _ after =>
        (!holding.tasks .heartbeat || (env.raises .heartbeat).isNone) = true ∧
          after.Holds env (holding.settle [.heartbeat]).suspend)
      (fun _ after =>
        (!holding.tasks .heartbeat || (env.raises .heartbeat).isNone) = false ∧
          after.Holds env (holding.settle [.heartbeat]).suspend) ledger := by
  apply Ends.bind
  apply Ends.reads
  by_cases live : ledger.task .heartbeat = .live
  · have runs := (holds.tasks .heartbeat).mp live
    simp only [if_pos live, runs, Bool.not_true, Bool.false_or]
    apply Ends.bind
    apply Ends.updates
    apply Ends.bind
    apply Ends.updates
    exact call_passes (holds.settle [.heartbeat]).suspend
  · have stopped : holding.tasks .heartbeat = false := by
      rw [← Bool.not_eq_true, ← holds.tasks .heartbeat]
      exact live
    simp only [if_neg live, stopped, Bool.not_false, Bool.true_or]
    apply Ends.returns
    refine ⟨trivial, { holds with tasks := ?_, sinks := ?_ }⟩
    · intro job
      rw [holds.tasks job]
      by_cases same : job = .heartbeat
      · subst same
        simp [Holding.settle, Holding.suspend, stopped]
      · simp [Holding.settle, Holding.suspend, same]
    · intro stage stream held
      exact Bool.or_eq_true_iff.mpr (.inl (holds.sinks stage stream held))

theorem stopIdleMonitor_exposed (exposed : ledger.Exposed env) :
    Ends (shieldedCleanup env .heartbeat (stopIdleMonitor env))
      (fun _ after => after.Exposed env) (fun _ after => after.Exposed env) ledger := by
  obtain ⟨holding, holds, live⟩ := exposed
  have comes : Ends (stopIdleMonitor env) (fun _ after => after.Exposed env)
      (fun _ after => after.Exposed env) ledger := by
    apply (stopIdleMonitor_ends holds).mono
    · exact fun _ _ stopped => ⟨_, stopped.2, live⟩
    · exact fun _ _ stopped => ⟨_, stopped.2, live⟩
  exact Ends.shield comes fun _ _ => ends_left_iff.mp comes

theorem runSubprocessWithStreams_cleans :
    Cleans env (runSubprocessWithStreams env) env.cleansWithStreams {} := by
  have follows : Exposes env (do
      call env (.start only)
      tryCatch
        (do
          launchIdleMonitor env
          call env .prepare
          buildRunTaskOwnership env)
        fun error => do
          shieldedCleanup env .heartbeat (stopIdleMonitor env)
          throw error)
      ((env.raises (.start only)).isNone &&
        (env.launches && ((env.raises .prepare).isNone && env.owns))) env.spawned := by
    apply (call_exposes spawned_exposed).bind
    intro started exposed
    have body : Exposes env (do
          launchIdleMonitor env
          call env .prepare
          buildRunTaskOwnership env)
        (env.launches && ((env.raises .prepare).isNone && env.owns)) started :=
      (launchIdleMonitor_exposes exposed).bind fun _ exposed =>
        (call_exposes exposed).bind fun _ exposed => buildRunTaskOwnership_exposes exposed
    apply Ends.handle
    apply body.mono (fun _ _ returned => returned)
    rintro error after ⟨fails, exposed⟩
    apply Ends.bind
    apply (stopIdleMonitor_exposed exposed).mono
    · exact fun _ _ exposed => Ends.raises ⟨fails, exposed⟩
    · exact fun _ _ exposed => ⟨fails, exposed⟩
  unfold runSubprocessWithStreams startOwnedProcess
  rw [bind_assoc]
  exact spawnSubprocess_cleans follows.cleans

end Run

section Handle

theorem detachRunTasks_ends {error : Raised} {returned : Unit → Ledger 1 → Prop}
    {raised : Raised → Ledger 1 → Prop} (holds : ledger.Holds env holding)
    (raises : ∀ error after, after.Holds env (holding.settle holding.recorded) →
      raised error after) :
    Ends (do detachRunTasks env; throw error) returned raised ledger := by
  apply Ends.bind
  apply Ends.bind
  apply Ends.reads
  rw [holds.recorded]
  split
  · rename_i nothing
    apply Ends.returns
    apply Ends.raises
    apply raises
    rw [nothing]
    exact { holds with tasks := by simpa [Holding.settle] using holds.tasks }
  · apply Ends.bind
    apply Ends.updates
    apply (call_passes (holds.settle holding.recorded)).mono
    · exact fun _ after passed => Ends.raises (raises error after passed.2)
    · exact fun error after passed => raises error after passed.2

/-- The child runs, and nothing else is held. -/
def Ledger.Bare (env : Env 1) (ledger : Ledger 1) : Prop :=
  ∃ holding, ledger.Holds env holding ∧ holding.child = .live ∧
    (∀ job, holding.tasks job = false) ∧ ∀ stream, holding.sinks stream = false

theorem Ledger.Bare.terminate_iff (bare : ledger.Bare env) :
    (left (terminate env [only]) ledger).Clean env ↔ env.reaches only = true := by
  obtain ⟨holding, holds, live, tasks, sinks⟩ := bare
  apply clean_left_terminate_iff ((holds.child only).trans live)
  · intro job running
    have wrong := (holds.tasks job).mp running
    rw [tasks job] at wrong
    cases wrong
  · intro stage stream
    cases held : ledger.sink stage stream with
    | false => rfl
    | true =>
        have wrong := holds.sinks stage stream held
        rw [sinks stream] at wrong
        cases wrong
  · exact holds.owned
  · exact holds.closed

theorem spawned_bare : env.spawned.Bare env :=
  ⟨.spawned, spawned_holds, rfl, fun _ => rfl, fun _ => rfl⟩

def Env.attachesFirst (env : Env 1) : Bool :=
  (env.raises .prepare).isNone && env.writes && env.attaches .stdout

/-- What an attachment leaves running is the consumer that was not recorded. -/
def Ledger.Unattached (env : Env 1) (ledger : Ledger 1) : Prop :=
  (env.attachesFirst = false ∨ env.attaches .stderr = false ∧ env.binding .stdout ≠ .pipe) ∧
      ledger.Bare env ∨
    (env.attachesFirst = true ∧ env.attaches .stderr = false ∧ env.binding .stdout = .pipe) ∧
      ∃ holding, ledger.Holds env holding ∧ holding.tasks (.consumer only .stdout) = true

/-- The child runs, and the writer that it needs is recorded. -/
def Env.written (env : Env 1) : Holding where
  child := .live
  tasks := fun job => env.feeds && decide (job = .writer)
  sinks := fun _ => false
  recorded := if env.feeds then [.writer] else []

theorem written_holds (holds : ledger.Holds env
      (if env.feeds = true then Holding.spawned.create .writer else .spawned)) :
    (left (record (if env.feeds then [.writer] else [])) ledger).Holds env env.written := by
  have holds := holds.record (if env.feeds then [.writer] else [])
  cases feeds : env.feeds with
  | false => simpa [Env.written, Holding.spawned, feeds] using holds
  | true => simpa [Env.written, Holding.create, Holding.spawned, feeds] using holds

theorem settle_written (job : Job 1) :
    (env.written.settle env.written.recorded).tasks job = false := by
  cases feeds : env.feeds <;> simp [Env.written, Holding.settle, feeds]

theorem attachRunTasks_ends :
    Ends (attachRunTasks env)
      (fun _ _ => env.attachesFirst = true ∧ env.attaches .stderr = true)
      (fun _ after => after.Unattached env) env.spawned := by
  apply Ends.bind
  apply (call_passes spawned_holds).mono
  · rintro _ prepared ⟨prepares, holds⟩
    apply Ends.handle
    apply Ends.bind
    apply (spawnStdinWriter_passes holds).mono
    · rintro _ written ⟨writes, holds⟩
      apply Ends.bind
      apply Ends.updates
      have holds := written_holds holds
      apply Ends.bind
      apply Ends.bind
      apply (spawnConsumer_passes holds).mono
      · rintro _ first ⟨attachesFirst, holds⟩
        have all : env.attachesFirst = true := by
          rw [Env.attachesFirst, prepares, writes, attachesFirst]
          rfl
        apply (spawnConsumer_passes holds).mono
        · rintro _ second ⟨attachesSecond, _⟩
          exact Ends.updates ⟨all, attachesSecond⟩
        · rintro error second ⟨attachesSecond, holds⟩
          apply detachRunTasks_ends holds
          intro error after holds
          by_cases piped : env.binding .stdout = .pipe
          · rw [if_pos piped] at holds
            refine .inr ⟨⟨all, attachesSecond, piped⟩, _, holds, ?_⟩
            cases feeds : env.feeds <;>
              simp [Holding.settle, Holding.create, Env.written, feeds]
          · rw [if_neg piped] at holds
            exact .inl ⟨.inr ⟨attachesSecond, piped⟩, _, holds, rfl, settle_written,
              fun _ => rfl⟩
      · rintro error first ⟨attachesFirst, holds⟩
        apply detachRunTasks_ends holds
        intro error after holds
        exact .inl ⟨.inl (by rw [Env.attachesFirst, attachesFirst, Bool.and_false]),
          _, holds, rfl, settle_written, fun _ => rfl⟩
    · rintro error written ⟨writes, holds⟩
      apply detachRunTasks_ends holds
      intro error after holds
      refine .inl ⟨.inl (by rw [Env.attachesFirst, writes, Bool.and_false, Bool.false_and]),
        _, holds, rfl, ?_, fun _ => rfl⟩
      simp [Holding.settle, Holding.spawned]
  · rintro error prepared ⟨prepares, holds⟩
    refine .inl ⟨.inl ?_, .spawned, holds, rfl, fun _ => rfl, fun _ => rfl⟩
    rw [Env.attachesFirst, prepares, Bool.false_and, Bool.false_and]

/-- A failed start of a handle is reclaimed by the stop of its child, unless the first
consumer was made and the second was not. -/
def Env.cleansHandle (env : Env 1) : Bool :=
  env.cleansAfter
    (if (env.raises (.start only)).isNone && env.attachesFirst then
      env.attaches .stderr || (env.binding .stdout != .pipe && env.reaches only)
    else
      env.reaches only)

theorem startHandleRun_cleans : Cleans env (startHandleRun env) env.cleansHandle {} := by
  apply spawnSubprocess_cleans
  apply Ends.handle
  apply Ends.bind
  apply call_ends
  · intro starts
    apply attachRunTasks_ends.mono
    · rintro _ after ⟨first, second⟩
      simp [starts, first, second]
    · rintro error after unattached
      apply settleSpawnedChild_ends
      intro error
      rcases unattached with ⟨fails, bare⟩ | ⟨⟨first, second, piped⟩, holding, holds, live⟩
      · rw [bare.terminate_iff]
        rcases fails with first | ⟨second, unpiped⟩
        · simp [first]
        · cases first : env.attachesFirst <;> simp [starts, second, unpiped]
      · have leaks := holds.terminate.not_clean_task live
        simp [starts, first, second, piped, leaks]
  · intro error starts
    apply settleSpawnedChild_ends
    intro error
    rw [spawned_bare.terminate_iff]
    simp [starts]

end Handle

section Lines

/-- Both outputs go elsewhere than to a consumer. -/
def Env.unread (env : Env 1) : Bool :=
  env.binding .stdout != .pipe && env.binding .stderr != .pipe

/-- Nothing cuts the abandonment off while it has a task to settle, and it has no
writer, which it does not settle. -/
def Env.abandons (env : Env 1) : Bool :=
  (!env.watches || (env.raises .heartbeat).isNone) &&
    ((env.raises .teardownStarted).isNone && (env.reaches only && (!env.feeds &&
      (env.unread || (!env.interrupts .terminate && (env.raises .drainStarted).isNone)))))

def Env.cleansLines (env : Env 1) : Bool :=
  env.cleansAfter ((env.raises .prepare).isNone && env.owns &&
    ((env.launches && ((env.raises (.start only)).isNone && (env.raises .spawned).isNone)) ||
      env.abandons))

/-- What a run of the tasks holds, with or without a heartbeat. -/
def Env.made (env : Env 1) (watches : Bool) : Holding where
  child := .live
  tasks := fun
    | .heartbeat => watches
    | .writer => env.feeds
    | .consumer _ stream => decide (env.binding stream = .pipe)
  sinks := fun _ => false
  recorded := []

theorem made_of_created :
    (if env.binding .stderr = .pipe then
        Holding.create (if env.binding .stdout = .pipe then
            Holding.create (if env.feeds = true then .create .spawned .writer else .spawned)
              (.consumer only .stdout)
          else if env.feeds = true then .create .spawned .writer else .spawned)
          (.consumer only .stderr)
      else if env.binding .stdout = .pipe then
        Holding.create (if env.feeds = true then .create .spawned .writer else .spawned)
          (.consumer only .stdout)
      else if env.feeds = true then .create .spawned .writer else .spawned) =
      env.made false := by
  have all : ∀ stage : Fin 1, stage = only := eq_only
  cases feeds : env.feeds <;> by_cases first : env.binding .stdout = .pipe <;>
    by_cases second : env.binding .stderr = .pipe <;>
    · simp only [first, second, if_true, if_false, Bool.false_eq_true, Holding.create,
        Holding.spawned, Env.made, feeds, Holding.mk.injEq, true_and, and_true]
      funext job
      rcases job with _ | _ | ⟨stage, _ | _⟩ <;> simp [first, second, all]

theorem buildUnstartedRun_ends :
    Ends (buildUnstartedRun env)
      (fun _ after => ((env.raises .prepare).isNone && env.owns) = true ∧
        after.Holds env (env.made false))
      (fun _ after => ((env.raises .prepare).isNone && env.owns) = false ∧
        after.Exposed env) env.spawned := by
  have exposes : Exposes env (buildUnstartedRun env) ((env.raises .prepare).isNone && env.owns)
      env.spawned :=
    (call_exposes spawned_exposed).bind fun _ exposed => buildRunTaskOwnership_exposes exposed
  have makes : Ends (buildUnstartedRun env) (fun _ after => after.Holds env (env.made false))
      (fun _ _ => True) env.spawned := by
    apply Ends.bind
    apply (call_passes spawned_holds).mono
    · rintro _ prepared ⟨_, holds⟩
      apply Ends.bind
      apply (spawnStdinWriter_passes holds).mono
      · rintro _ written ⟨_, holds⟩
        apply Ends.bind
        apply (spawnConsumer_passes holds).mono
        · rintro _ first ⟨_, holds⟩
          apply (spawnConsumer_passes holds).mono
          · rintro _ second ⟨_, holds⟩
            exact made_of_created ▸ holds
          · exact fun _ _ _ => trivial
        · exact fun _ _ _ => trivial
      · exact fun _ _ _ => trivial
    · exact fun _ _ _ => trivial
  apply (exposes.both makes).mono
  · rintro _ after ⟨⟨answer, _⟩, holds⟩
    exact ⟨answer, holds⟩
  · rintro error after ⟨raised, _⟩
    exact raised

/-- Where a failed guard leaves the heartbeat. -/
theorem guard_ends (holds : ledger.Holds env (env.made false)) :
    Ends (do
        launchIdleMonitor env
        call env (.start only)
        call env .spawned)
      (fun _ _ => (env.launches &&
        ((env.raises (.start only)).isNone && (env.raises .spawned).isNone)) = true)
      (fun _ after => (env.launches &&
          ((env.raises (.start only)).isNone && (env.raises .spawned).isNone)) = false ∧
        after.Holds env (env.made env.watches)) ledger := by
  apply Ends.bind
  apply (launchIdleMonitor_passes holds).mono
  · rintro _ launched ⟨launches, holds⟩
    have watches : (if env.idle = true then (env.made false).create .heartbeat
        else env.made false) = env.made env.watches := by
      cases idle : env.idle with
      | false => simp [Env.watches, idle]
      | true =>
          have launch : (env.raises .launch).isNone = true := by
            simpa [Env.launches, idle] using launches
          simp only [if_true, Env.watches, idle, launch, Bool.and_self, Holding.create,
            Env.made, Holding.mk.injEq, true_and, and_true]
          funext job
          cases job <;> simp
    rw [watches] at holds
    apply Ends.bind
    apply (call_passes holds).mono
    · rintro _ started ⟨starts, holds⟩
      apply (call_passes holds).mono
      · rintro _ spawned ⟨reports, _⟩
        rw [launches, starts, reports]
        rfl
      · rintro error spawned ⟨reports, holds⟩
        exact ⟨by rw [reports, Bool.and_false, Bool.and_false], holds⟩
    · rintro error started ⟨starts, holds⟩
      exact ⟨by rw [starts, Bool.false_and, Bool.and_false], holds⟩
  · rintro error launched ⟨launches, holds⟩
    have unwatched : env.watches = false := by
      cases idle : env.idle with
      | false => simp [Env.launches, idle] at launches
      | true => simpa [Env.launches, Env.watches, idle] using launches
    exact ⟨by rw [launches, Bool.false_and], by rwa [unwatched]⟩

/-- A capture holds no file that none of the unsettled tasks can still write. -/
theorem Ledger.Holds.clean_iff (holds : ledger.Holds env holding)
    (sinks : (∀ job, holding.tasks job = false) → ∀ stream, holding.sinks stream = false) :
    ledger.Clean env ↔
      holding.child.isSettled = true ∧ ∀ job, holding.tasks job = false := by
  constructor
  · intro clean
    refine ⟨holds.child only ▸ clean.children only, fun job => ?_⟩
    rw [← Bool.not_eq_true]
    exact fun live => holds.not_clean_task live clean
  · rintro ⟨child, tasks⟩
    exact holds.clean ⟨child, tasks, sinks tasks⟩

/-- What an abandoned run still holds once its child has been stopped. -/
def Env.torn (env : Env 1) : Holding :=
  (((env.made env.watches).settle [.heartbeat]).suspend).terminate env

/-- And what it holds once its consumers have been drained. -/
def Env.drained (env : Env 1) : Holding :=
  { (env.torn.suspend.settle [.consumer only .stdout, .consumer only .stderr]) with
    sinks := fun _ => false }

theorem torn_child : env.torn.child.isSettled = true ↔ env.reaches only = true := by
  change (if env.reaches only = true then Child.reaped else Child.live).isSettled = true ↔ _
  cases env.reaches only <;> simp [Child.isSettled]

theorem torn_tasks (job : Job 1) :
    env.torn.tasks job = ((env.made env.watches).tasks job && decide (job ≠ .heartbeat)) := by
  simp [Env.torn, Holding.terminate, Holding.suspend, Holding.settle]

theorem torn_clean_iff (holds : ledger.Holds env env.torn) :
    ledger.Clean env ↔ env.reaches only = true ∧ env.feeds = false ∧ env.unread = true := by
  have idle : (∀ job, env.torn.tasks job = false) ↔ env.feeds = false ∧ env.unread = true := by
    simp only [torn_tasks, Env.unread, Bool.and_eq_true, bne_iff_ne]
    constructor
    · intro settled
      refine ⟨?_, ?_, ?_⟩
      · simpa [Env.made] using settled .writer
      · simpa [Env.made] using settled (.consumer only .stdout)
      · simpa [Env.made] using settled (.consumer only .stderr)
    · rintro ⟨unfed, first, second⟩ job
      rcases job with _ | _ | ⟨stage, _ | _⟩
      · simp
      · simp [Env.made, unfed]
      · simp [Env.made, first]
      · simp [Env.made, second]
  rw [holds.clean_iff, torn_child, idle]
  intro settled stream
  have consumer := settled (.consumer only stream)
  rw [torn_tasks] at consumer
  simpa [Env.torn, Holding.terminate, Holding.suspend, Holding.settle, Env.made]
    using consumer

theorem drained_clean_iff (holds : ledger.Holds env env.drained) :
    ledger.Clean env ↔ env.reaches only = true ∧ env.feeds = false := by
  have idle : (∀ job, env.drained.tasks job = false) ↔ env.feeds = false := by
    have tasks : ∀ job, env.drained.tasks job = (env.torn.tasks job &&
        decide (job ∉ [Job.consumer only .stdout, .consumer only .stderr])) := fun _ => rfl
    simp only [tasks, torn_tasks]
    constructor
    · intro settled
      simpa [Env.made] using settled .writer
    · intro unfed job
      have all : ∀ stage : Fin 1, stage = only := eq_only
      rcases job with _ | _ | ⟨stage, _ | _⟩
      · simp
      · simp [Env.made, unfed]
      · simp [all stage]
      · simp [all stage]
  have child : env.drained.child.isSettled = true ↔ env.reaches only = true := torn_child
  rw [holds.clean_iff (fun _ _ => rfl), child, idle]

theorem discardDrain_ends (holds : ledger.Holds env env.torn) :
    Ends (discardDrain env)
      (fun _ after => (env.raises .drainStarted).isNone = true ∧ after.Holds env env.drained)
      (fun _ after => (env.raises .drainStarted).isNone = true ∧ after.Holds env env.drained ∨
        (env.raises .drainStarted).isNone = false ∧ after.Holds env env.torn) ledger := by
  apply Ends.bind
  apply (call_passes holds).mono
  · rintro _ started ⟨starts, holds⟩
    have drains : Ends (do
          suspend env
          settle [.consumer only .stdout, .consumer only .stderr]
          release)
        (fun _ after => after.Holds env env.drained) (fun _ after => after.Holds env env.drained)
        started := by
      apply Ends.bind
      apply Ends.updates
      apply Ends.bind
      apply Ends.updates
      apply Ends.updates
      exact (holds.suspend.settle _).release
    apply Ends.bind
    apply Ends.shield
    · apply drains.mono
      · intro _ drained holds
        apply (call_passes holds).mono
        · exact fun _ _ completed => ⟨starts, completed.2⟩
        · exact fun _ _ completed => .inl ⟨starts, completed.2⟩
      · exact fun _ _ holds => .inl ⟨starts, holds⟩
    · exact fun _ _ => .inl ⟨starts, ends_left_iff.mp drains⟩
  · rintro error started ⟨starts, holds⟩
    exact .inr ⟨starts, holds⟩

theorem abandonUnstartedRun_ends (holds : ledger.Holds env (env.made env.watches)) :
    Ends (abandonUnstartedRun env) (fun _ after => after.Clean env ↔ env.abandons = true)
      (fun _ after => after.Clean env ↔ env.abandons = true) ledger := by
  have exposed : ∀ {after : Ledger 1} {held : Holding}, after.Holds env held →
      held.child = .live → env.abandons = false →
      (after.Clean env ↔ env.abandons = true) := by
    intro after held holds live fails
    simp [holds.not_clean_child live, fails]
  apply Ends.bind
  apply (stopIdleMonitor_ends holds).mono
  · rintro _ stopped ⟨stops, holds⟩
    have stops : (!env.watches || (env.raises .heartbeat).isNone) = true := stops
    apply Ends.bind
    apply (call_passes holds).mono
    · rintro _ started ⟨starts, holds⟩
      have abandons : env.abandons = (env.reaches only && (!env.feeds &&
          (env.unread ||
            (!env.interrupts .terminate && (env.raises .drainStarted).isNone)))) := by
        rw [Env.abandons, stops, Bool.true_and, starts, Bool.true_and]
      have torn : ∀ after : Ledger 1, after.Holds env env.torn →
          (env.interrupts .terminate = true ∨ (env.raises .drainStarted).isNone = false) →
          (after.Clean env ↔ env.abandons = true) := by
        intro after holds cut
        rw [torn_clean_iff holds, abandons]
        rcases cut with cut | cut <;> simp [cut]
      have terminated := holds.terminate
      apply Ends.bind
      unfold shieldedCleanup Env.interruption
      cases interrupted : env.interrupts .terminate with
      | true =>
          exact torn _ terminated (.inl interrupted)
      | false =>
          have stopped : Ends (terminate env [only]) (fun _ after => after.Holds env env.torn)
              (fun _ _ => False) started := by
            apply Ends.bind
            apply Ends.updates
            apply Ends.updates
            exact terminated
          apply stopped.mono
          · intro _ stopped holds
            apply Ends.bind
            have drained : ∀ after : Ledger 1, (env.raises .drainStarted).isNone = true →
                after.Holds env env.drained → (after.Clean env ↔ env.abandons = true) := by
              intro after starts holds
              rw [drained_clean_iff holds, abandons]
              simp [interrupted, starts]
            apply (discardDrain_ends holds).mono
            · rintro _ after ⟨starts, holds⟩
              apply (call_passes holds).mono
              · exact fun _ after completed => drained after starts completed.2
              · exact fun _ after completed => drained after starts completed.2
            · rintro error after (⟨starts, holds⟩ | ⟨starts, holds⟩)
              · exact drained after starts holds
              · exact torn after holds (.inr starts)
          · exact fun _ _ wrong => (by cases wrong)
    · rintro error started ⟨starts, holds⟩
      exact exposed holds rfl
        (by rw [Env.abandons, starts, Bool.false_and, Bool.and_false])
  · rintro error stopped ⟨stops, holds⟩
    have stops : (!env.watches || (env.raises .heartbeat).isNone) = false := stops
    exact exposed holds rfl (by rw [Env.abandons, stops, Bool.false_and])

theorem startLineStreamRun_cleans : Cleans env (startLineStreamRun env) env.cleansLines {} := by
  apply spawnSubprocess_cleans
  apply Ends.bind
  apply buildUnstartedRun_ends.mono
  · rintro _ built ⟨builds, holds⟩
    simp only [builds, Bool.true_and]
    apply Ends.handle
    apply (guard_ends holds).mono
    · intro _ after guards
      rw [guards, Bool.true_or]
    · rintro error after ⟨fails, holds⟩
      simp only [fails, Bool.false_or]
      apply Ends.bind
      apply (abandonUnstartedRun_ends holds).mono
      · exact fun _ _ cleans => Ends.raises cleans
      · exact fun _ _ cleans => cleans
  · rintro error after ⟨fails, exposed⟩
    rw [fails]
    simpa using exposed.not_clean

end Lines

end Cuprum.Startup
