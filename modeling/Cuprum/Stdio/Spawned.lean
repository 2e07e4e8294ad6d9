import Cuprum.Stdio.Plan

namespace Cuprum.Stdio

open Cuprum.PathName
open Cuprum.Executable (posix text)
open Cuprum.StageStreams (CapturePolicy)
open Cuprum.Startup (Stream)

variable {Object Error Producer : Type}

/-- `subprocess.PIPE`. -/
def pipeSentinel : Int := -1

/-- `subprocess.STDOUT`. -/
def stdoutSentinel : Int := -2

/-- `subprocess.DEVNULL`. -/
def devnullSentinel : Int := -3

def outputStdio (binding : StdioBinding Object) (owned : Option Nat) (consumes : Bool) :
    Option Int :=
  if binding.isPipe then some (if consumes then pipeSentinel else devnullSentinel)
  else
    match owned with
    | some fd => some fd
    | none => binding.descriptor

def stdinStdio (plan : StdinPlan Producer) : Option Int :=
  if plan.isPipe then some pipeSentinel else none

structure DirectProcessConfig where
  stdio : PipeStream → Option Int
  pipes : PipeStream → Bool

namespace SubprocessExecution

variable (execution : SubprocessExecution Object Producer)

def consumes (stream : Stream) : Bool :=
  (execution.stdio.output stream).isPipe &&
    ((execution.capture stream).isSome || execution.echo stream || execution.idle ||
      execution.onLine)

/-- `opened` is what opening a path of the run's own answers. -/
def owned (opened : Stream → PurePath posix → Nat) (stream : Stream) : Option Nat :=
  (execution.stdio.output stream).ownedPath.map (opened stream)

/-- What `_spawn_subprocess` hands over once its paths are open. -/
def spawns (opened : Stream → PurePath posix → Nat) : DirectProcessConfig where
  stdio := fun
    | .stdin => stdinStdio execution.stdio.stdin
    | .output stream => outputStdio (execution.stdio.output stream)
        (execution.owned opened stream) (execution.consumes stream)
  pipes := execution.stdio.pipes

end SubprocessExecution

/-- What a child is given for one of its streams. -/
inductive ChildEnd
  | parent
  | pipe
  | null
  | stdout
  | descriptor (fd : Nat)
  | refused
  deriving DecidableEq

/-- How `Popen` reads a value. -/
def popenEnd (stream : PipeStream) : Option Int → ChildEnd
  | none => .parent
  | some value =>
      if value = pipeSentinel then .pipe
      else if value = devnullSentinel then .null
      else if value = stdoutSentinel ∧ stream = .output .stderr then .stdout
      else if 0 ≤ value then .descriptor value.toNat
      else .refused

def DirectProcessConfig.childEnd (config : DirectProcessConfig) (stream : PipeStream) : ChildEnd :=
  popenEnd stream (config.stdio stream)

inductive Backend
  | wait4
  | asyncio

/-- The parent holds the other end, connected to the loop. -/
def Backend.attaches (backend : Backend) (config : DirectProcessConfig) (stream : PipeStream) :
    Bool :=
  match backend with
  | .wait4 => config.pipes stream && config.childEnd stream = .pipe
  | .asyncio => config.childEnd stream = .pipe

/-- What the writer of a run is given to write, where it has one. -/
def spawnStdinWriter : StdinPlan Producer → Option (StdinSource Producer)
  | .noStdin => none
  | .streamStdin producer => some (.stream producer)
  | .pipeStdin => some (.data [])
  | .payloadStdin data => some (.data data)

def SubprocessExecution.hasConsumers (execution : SubprocessExecution Object Producer) : Bool :=
  execution.consumes .stdout || execution.consumes .stderr

/-- A consumer task is made for the stream, and has a reader to drain. -/
def SubprocessExecution.drains (execution : SubprocessExecution Object Producer)
    (backend : Backend) (config : DirectProcessConfig) (stream : Stream) : Bool :=
  execution.hasConsumers && (execution.stdio.output stream).isPipe &&
    backend.attaches config (.output stream)

section Declared

variable (fields : OutputFields Object)

def OutputFields.captured (stream : Stream) : Bool :=
  (((fields.captures stream).resolved fields.capture).getD none).isSome

def OutputFields.echoed (stream : Stream) : Bool :=
  (fields.echoes stream).getD fields.echo

/-- Something asks to see what the child writes. -/
def OutputFields.observed (stream : Stream) : Bool :=
  fields.captured stream || fields.echoed stream || fields.idle || fields.onLine

end Declared

/-- Where a target says that a stream goes. -/
inductive Host.Directs (host : Host Object Error) (opened : PurePath posix → Nat)
    (observed : Bool) : Option (StdioTarget Object) → ChildEnd → Prop
  | unset : host.Directs opened observed none (if observed then .pipe else .null)
  | pipe : host.Directs opened observed (some .pipe) (if observed then .pipe else .null)
  | inherit : host.Directs opened observed (some .inherit) .parent
  | path (file : PurePath posix) :
      host.Directs opened observed (some (.path file)) (.descriptor (opened file))
  | descriptor (fd : Nat) :
      host.Directs opened observed (some (.fd (.descriptor fd))) (.descriptor fd)
  | object (object : Object) (fd : Nat) (answers : host.fileno object = .ok (some (fd : Int))) :
      host.Directs opened observed (some (.fd (.object object))) (.descriptor fd)

@[simp]
theorem popenEnd_descriptor (stream : PipeStream) (fd : Nat) :
    popenEnd stream (some (fd : Int)) = .descriptor fd := by
  have real : (0 : Int) ≤ fd := Int.natCast_nonneg fd
  change (if (fd : Int) = -1 then ChildEnd.pipe else if (fd : Int) = -3 then .null
    else if (fd : Int) = -2 ∧ stream = .output .stderr then .stdout
    else if 0 ≤ (fd : Int) then .descriptor (fd : Int).toNat else .refused) = _
  rw [if_neg (by omega), if_neg (by omega), if_neg (by omega), if_pos real, Int.toNat_natCast]

theorem popenEnd_consumes (stream : PipeStream) (consumes : Bool) :
    popenEnd stream (some (if consumes then pipeSentinel else devnullSentinel)) =
      if consumes then .pipe else .null := by
  cases consumes <;> rfl

/-- The run is prepared as its fields and its source ask. -/
structure OutputFields.Prepares (fields : OutputFields Object) (host : Host Object Error)
    (source : Option (StdinSource Producer)) (execution : SubprocessExecution Object Producer) :
    Prop where
  captures : ∀ stream, (fields.captures stream).resolved fields.capture =
    some (execution.capture stream)
  echoes : ∀ stream, execution.echo stream = fields.echoed stream
  idle : execution.idle = fields.idle
  onLine : execution.onLine = fields.onLine
  binds : ∀ stream, host.Binds stream (fields.target stream) (execution.stdio.output stream)
  plan : execution.stdio.stdin = resolveStdinPlan source fields

/-- Nothing in the fields, the source, the rendering or the platform is refused. -/
structure OutputFields.Honourable (fields : OutputFields Object) (host : Host Object Error)
    (source : Option (StdinSource Producer)) (rendering : Rendering) : Prop where
  spelled : ∀ stream, ((fields.captures stream).resolved fields.capture).isSome = true
  stdin : ∀ target ∈ fields.stdin, target = .pipe ∨ target = .inherit
  uncontested : source.isSome = true → fields.stdin ≠ some .inherit
  repairable : ∀ stream maxBytes,
    (fields.captures stream).resolved fields.capture = some (some (.bounded maxBytes)) →
    rendering.captureBytes = false → host.Repairs rendering.encoding
  piped : ∀ stream, (fields.captured stream || fields.echoed stream) = true →
    ∀ target ∈ fields.target stream, target = .pipe
  apart : ∀ stdout stderr, fields.target .stdout = some (.path stdout) →
    fields.target .stderr = some (.path stderr) → stdout ≠ stderr
  bindable : ∀ stream, ∃ binding, host.Binds stream (fields.target stream) binding

theorem rejectContestedStdin_ok {target : Option (StdioTarget Object)} {hasSource : Bool} :
    (rejectContestedStdin target hasSource : Except (Fault Error) Unit) = .ok () ↔
      (hasSource = true → target ≠ some .inherit) := by
  cases hasSource with
  | false => exact ⟨fun _ wrong => (by cases wrong), fun _ => rfl⟩
  | true =>
      cases target with
      | none => exact ⟨fun _ _ wrong => (by cases wrong), fun _ => rfl⟩
      | some target =>
          cases target with
          | inherit => exact ⟨fun wrong => (by cases wrong), fun apart => absurd rfl (apart rfl)⟩
          | pipe | path | fd => exact ⟨fun _ _ wrong => (by cases wrong), fun _ => rfl⟩

theorem OutputFields.Resolves.captured {fields : OutputFields Object}
    {options : ResolvedFields Object} (resolves : fields.Resolves options) (stream : Stream) :
    fields.captured stream = (options.resolvedCapture stream).isSome := by
  rw [OutputFields.captured, resolves.captures]
  rfl

theorem OutputFields.Resolves.echoed {fields : OutputFields Object}
    {options : ResolvedFields Object} (resolves : fields.Resolves options) (stream : Stream) :
    options.resolvedEcho stream = fields.echoed stream := by
  rw [ResolvedFields.resolvedEcho, resolves.fields]
  rfl

theorem OutputFields.Resolves.reads {fields : OutputFields Object}
    {options : ResolvedFields Object} (resolves : fields.Resolves options) (stream : Stream) :
    options.reads stream = (fields.captured stream || fields.echoed stream) := by
  rw [ResolvedFields.reads, resolves.captured, resolves.echoed]

theorem OutputFields.Resolves.stdin {fields : OutputFields Object}
    {options : ResolvedFields Object} (resolves : fields.Resolves options) :
    options.stdin = fields.stdin := by
  rw [resolves.fields]

theorem OutputFields.Resolves.target {fields : OutputFields Object}
    {options : ResolvedFields Object} (resolves : fields.Resolves options) :
    options.target = fields.target := by
  rw [resolves.fields]

theorem OutputFields.Resolves.plan {fields : OutputFields Object}
    {options : ResolvedFields Object} (resolves : fields.Resolves options)
    (source : Option (StdinSource Producer)) :
    resolveStdinPlan source options.toOutputFields = resolveStdinPlan source fields := by
  rw [resolves.fields]
  rfl

theorem isBounded_iff {policy : Option CapturePolicy} :
    isBounded policy = true ↔ ∃ maxBytes, policy = some (.bounded maxBytes) := by
  constructor
  · intro bounded
    cases policy with
    | none => cases bounded
    | some policy =>
        cases policy with
        | bounded maxBytes => exact ⟨maxBytes, rfl⟩
        | full | fileBacked => cases bounded
  · rintro ⟨maxBytes, rfl⟩
    rfl

/-- Just what can be honoured is accepted, and it is prepared as it was asked for. -/
theorem prepare_ok {host : Host Object Error} {source : Option (StdinSource Producer)}
    {rendering : Rendering} {fields : OutputFields Object}
    {execution : SubprocessExecution Object Producer} :
    prepare host source rendering fields = .ok execution ↔
      fields.Honourable host source rendering ∧ fields.Prepares host source execution := by
  unfold prepare buildSubprocessExecution resolveStdio
  simp only [bind_ok, RunOutputOptions.postInit_ok, resolveOutputBinding_ok]
  constructor
  · intro accepts
    obtain ⟨options, resolves, _, uncontested, _, repairable, stdio,
      ⟨stdout, first, stderr, second, bound⟩, same⟩ := accepts
    cases bound
    cases same
    rw [resolves.target] at first second
    rw [rejectContestedStdin_ok, resolves.stdin] at uncontested
    rw [rejectUnsupportedBoundedCaptures_ok] at repairable
    have honourable := options.honourable
    have binds : ∀ stream, host.Binds stream (fields.target stream)
        (ResolvedStdio.output ⟨resolveStdinPlan source options.toOutputFields, stdout, stderr⟩
          stream) := by
      intro stream
      cases stream with
      | stdout => exact first
      | stderr => exact second
    constructor
    · exact {
        spelled := fun stream => by rw [resolves.captures]; rfl
        stdin := by
          rw [← resolves.stdin]
          exact honourable.stdin
        uncontested := uncontested
        repairable := by
          intro stream maxBytes named
          rw [resolves.captures] at named
          exact repairable stream (isBounded_iff.mpr ⟨maxBytes, Option.some.inj named⟩)
        piped := by
          intro stream reads
          rw [← resolves.target]
          exact honourable.piped stream (by rw [resolves.reads, reads])
        apart := by
          rw [← resolves.target]
          exact honourable.apart
        bindable := fun stream => ⟨_, binds stream⟩ }
    · exact {
        captures := resolves.captures
        echoes := resolves.echoed
        idle := by rw [resolves.fields]
        onLine := by rw [resolves.fields]
        binds := binds
        plan := resolves.plan source }
  · intro asked
    obtain ⟨honourable, prepares⟩ := asked
    have resolves : fields.Resolves
        (fields.resolve (execution.capture .stdout) (execution.capture .stderr)) := by
      refine ⟨fun stream => ?_, rfl⟩
      cases stream with
      | stdout => exact prepares.captures .stdout
      | stderr => exact prepares.captures .stderr
    have options : ResolvedFields.Honourable
        (fields.resolve (execution.capture .stdout) (execution.capture .stderr)) := {
      stdin := honourable.stdin
      piped := fun stream reads => honourable.piped stream (by rw [← resolves.reads, reads])
      apart := honourable.apart }
    have repairable : rejectUnsupportedBoundedCaptures host
        (fields.resolve (execution.capture .stdout) (execution.capture .stderr)).resolvedCapture
        rendering = .ok () := by
      apply rejectUnsupportedBoundedCaptures_ok.mpr
      intro stream bounded
      obtain ⟨maxBytes, named⟩ := isBounded_iff.mp bounded
      exact honourable.repairable stream maxBytes (by rw [resolves.captures, named])
    refine ⟨⟨_, options⟩, resolves, (), rejectContestedStdin_ok.mpr honourable.uncontested, (),
      repairable, _, ⟨_, prepares.binds .stdout, _, prepares.binds .stderr, rfl⟩, ?_⟩
    obtain ⟨capture, echo, idle, onLine, ⟨stdin, stdout, stderr⟩⟩ := execution
    have echoes : fields.echoed = echo := by
      funext stream
      exact (prepares.echoes stream).symm
    have captures : (fields.resolve (capture .stdout) (capture .stderr)).resolvedCapture =
        capture := by
      funext stream
      cases stream <;> rfl
    have plan : resolveStdinPlan source fields = stdin := prepares.plan.symm
    have idles : fields.idle = idle := prepares.idle.symm
    have observes : fields.onLine = onLine := prepares.onLine.symm
    subst echoes plan idles observes
    exact congrArg (fun capture => Except.ok (ε := Fault Error)
      (⟨capture, fields.echoed, fields.idle, fields.onLine,
        ⟨resolveStdinPlan source fields, stdout, stderr⟩⟩ :
          SubprocessExecution Object Producer)) captures

theorem Host.Binds.directs {host : Host Object Error} {stream : Stream}
    {target : Option (StdioTarget Object)} {binding : StdioBinding Object}
    (binds : host.Binds stream target binding) (opened : PurePath posix → Nat)
    (observed : Bool) :
    host.Directs opened observed target (popenEnd (.output stream)
      (outputStdio binding (binding.ownedPath.map opened) (binding.isPipe && observed))) := by
  cases binds with
  | unset =>
      simp only [outputStdio, if_true, Bool.true_and, popenEnd_consumes]
      exact .unset
  | pipe =>
      simp only [outputStdio, if_true, Bool.true_and, popenEnd_consumes]
      exact .pipe
  | inherit => exact .inherit
  | path file =>
      have hands : popenEnd (.output stream) (some (opened file : Int)) =
          .descriptor (opened file) := popenEnd_descriptor _ _
      exact hands ▸ .path file
  | descriptor fd =>
      have hands : popenEnd (.output stream) (some (fd : Int)) = .descriptor fd :=
        popenEnd_descriptor _ _
      exact hands ▸ .descriptor fd
  | object object fd redirects answers =>
      have hands : popenEnd (.output stream) (some (fd : Int)) = .descriptor fd :=
        popenEnd_descriptor _ _
      exact hands ▸ .object object fd answers

/-- Only what is bound to a pipe, and observed, comes to the run. -/
theorem Host.Binds.childEnd_pipe {host : Host Object Error} {stream : Stream}
    {target : Option (StdioTarget Object)} {binding : StdioBinding Object}
    (binds : host.Binds stream target binding) (opened : PurePath posix → Nat)
    (observed : Bool) :
    popenEnd (.output stream) (outputStdio binding (binding.ownedPath.map opened)
      (binding.isPipe && observed)) = .pipe ↔ (binding.isPipe && observed) = true := by
  cases binds with
  | unset | pipe =>
      simp only [outputStdio, if_true, Bool.true_and, popenEnd_consumes]
      cases observed <;> simp
  | inherit => simp [outputStdio, popenEnd]
  | path | descriptor | object => simp [outputStdio]

theorem OutputFields.Prepares.consumes {host : Host Object Error}
    {source : Option (StdinSource Producer)} {fields : OutputFields Object}
    {execution : SubprocessExecution Object Producer}
    (prepares : fields.Prepares host source execution) (stream : Stream) :
    execution.consumes stream =
      ((execution.stdio.output stream).isPipe && fields.observed stream) := by
  rw [SubprocessExecution.consumes, OutputFields.observed, OutputFields.captured,
    prepares.captures, prepares.echoes, prepares.idle, prepares.onLine]
  rfl

theorem OutputFields.Prepares.isPipe {host : Host Object Error}
    {source : Option (StdinSource Producer)} {fields : OutputFields Object}
    {execution : SubprocessExecution Object Producer}
    (prepares : fields.Prepares host source execution) {stream : Stream}
    (piped : ∀ target ∈ fields.target stream, target = .pipe) :
    (execution.stdio.output stream).isPipe = true := by
  have binds := prepares.binds stream
  cases named : fields.target stream with
  | none =>
      rw [named] at binds
      generalize execution.stdio.output stream = binding at binds
      cases binds
      rfl
  | some target =>
      cases piped target named
      rw [named] at binds
      generalize execution.stdio.output stream = binding at binds
      cases binds
      rfl

theorem spawnStdinWriter_plan (source : Option (StdinSource Producer))
    (fields : OutputFields Object) :
    spawnStdinWriter (resolveStdinPlan source fields) =
      source.or (if wantsStdinPipe fields then some (.data []) else none) := by
  cases source with
  | none =>
      unfold resolveStdinPlan
      cases wantsStdinPipe fields <;> rfl
  | some source => cases source <;> rfl

theorem isPipe_plan (plan : StdinPlan Producer) :
    plan.isPipe = (spawnStdinWriter plan).isSome := by
  cases plan <;> rfl

theorem attaches_eq (backend : Backend) {config : DirectProcessConfig} {stream : PipeStream}
    (named : config.childEnd stream = .pipe → config.pipes stream = true) :
    backend.attaches config stream = decide (config.childEnd stream = .pipe) := by
  cases backend with
  | asyncio => rfl
  | wait4 =>
      by_cases piped : config.childEnd stream = .pipe
      · simp [Backend.attaches, piped, named piped]
      · simp [Backend.attaches, piped]

/-- What becomes of a prepared run's streams, whichever backend spawns it. -/
structure OutputFields.Spawned (fields : OutputFields Object) (host : Host Object Error)
    (source : Option (StdinSource Producer)) (execution : SubprocessExecution Object Producer)
    (opened : Stream → PurePath posix → Nat) (backend : Backend) : Prop where
  directs : ∀ stream, host.Directs (opened stream) (fields.observed stream) (fields.target stream)
    ((execution.spawns opened).childEnd (.output stream))
  drains : ∀ stream, execution.drains backend (execution.spawns opened) stream =
    decide ((execution.spawns opened).childEnd (.output stream) = .pipe)
  attaches : ∀ stream, backend.attaches (execution.spawns opened) (.output stream) =
    decide ((execution.spawns opened).childEnd (.output stream) = .pipe)
  shows : ∀ stream, (fields.captured stream || fields.echoed stream) = true →
    execution.drains backend (execution.spawns opened) stream = true
  writes : spawnStdinWriter execution.stdio.stdin =
    source.or (if wantsStdinPipe fields then some (.data []) else none)
  feeds : (execution.spawns opened).childEnd .stdin =
    if (spawnStdinWriter execution.stdio.stdin).isSome then .pipe else .parent
  connects : backend.attaches (execution.spawns opened) .stdin =
    (spawnStdinWriter execution.stdio.stdin).isSome

theorem spawned_as_declared {host : Host Object Error} {source : Option (StdinSource Producer)}
    {rendering : Rendering} {fields : OutputFields Object}
    {execution : SubprocessExecution Object Producer}
    (accepts : prepare host source rendering fields = .ok execution)
    (opened : Stream → PurePath posix → Nat) (backend : Backend) :
    fields.Spawned host source execution opened backend := by
  obtain ⟨honourable, prepares⟩ := prepare_ok.mp accepts
  have directs : ∀ stream, host.Directs (opened stream) (fields.observed stream)
      (fields.target stream) ((execution.spawns opened).childEnd (.output stream)) := by
    intro stream
    have directs := (prepares.binds stream).directs (opened stream) (fields.observed stream)
    rw [← prepares.consumes] at directs
    exact directs
  have piped : ∀ stream, (execution.spawns opened).childEnd (.output stream) = .pipe ↔
      execution.consumes stream = true := by
    intro stream
    have piped := (prepares.binds stream).childEnd_pipe (opened stream) (fields.observed stream)
    rw [← prepares.consumes] at piped
    exact piped
  have attaches : ∀ stream, backend.attaches (execution.spawns opened) (.output stream) =
      decide ((execution.spawns opened).childEnd (.output stream) = .pipe) := by
    intro stream
    apply attaches_eq
    intro pipe
    have consumes := (piped stream).mp pipe
    exact (Bool.and_eq_true_iff.mp consumes).1
  have drains : ∀ stream, execution.drains backend (execution.spawns opened) stream =
      decide ((execution.spawns opened).childEnd (.output stream) = .pipe) := by
    intro stream
    rw [SubprocessExecution.drains, attaches]
    by_cases pipe : (execution.spawns opened).childEnd (.output stream) = .pipe
    · have consumes := (piped stream).mp pipe
      have reader : execution.hasConsumers = true := by
        rw [SubprocessExecution.hasConsumers, Bool.or_eq_true]
        cases stream with
        | stdout => exact .inl consumes
        | stderr => exact .inr consumes
      rw [reader, (Bool.and_eq_true_iff.mp consumes).1, Bool.true_and, Bool.true_and]
    · rw [decide_eq_false pipe, Bool.and_false]
  have feeds : (execution.spawns opened).childEnd .stdin =
      if (spawnStdinWriter execution.stdio.stdin).isSome then .pipe else .parent := by
    rw [← isPipe_plan]
    change popenEnd .stdin (if execution.stdio.stdin.isPipe then some pipeSentinel else none) = _
    cases execution.stdio.stdin.isPipe <;> rfl
  exact {
    directs := directs
    drains := drains
    attaches := attaches
    shows := by
      intro stream reads
      have isPipe := prepares.isPipe (honourable.piped stream reads)
      rw [drains, decide_eq_true_iff, piped, prepares.consumes, isPipe, Bool.true_and,
        OutputFields.observed, reads, Bool.true_or, Bool.true_or]
    writes := by rw [prepares.plan, spawnStdinWriter_plan]
    feeds := feeds
    connects := by
      rw [attaches_eq, feeds]
      · cases (spawnStdinWriter execution.stdio.stdin).isSome <;> rfl
      · intro pipe
        change execution.stdio.stdin.isPipe = true
        rw [isPipe_plan]
        rw [feeds] at pipe
        cases writes : (spawnStdinWriter execution.stdio.stdin).isSome with
        | true => rfl
        | false =>
            rw [writes] at pipe
            cases pipe }

def utf8Codec : CodecInfo Unit where
  name := text "utf-8"
  held := fun byte => .ok (some (if 0xC2 ≤ byte ∧ byte ≤ 0xF4 then [byte] else []))

/-- A host whose objects are the numbers of their descriptors. -/
def numbered : Host Nat Unit where
  repr := fun _ => []
  typeName := fun _ => text "TextIOWrapper"
  posixNamed := true
  fileno := fun object => .ok (some (object : Int))
  filenoOfStr := fun _ => ()
  lookup := fun encoding => .ok (if encoding = utf8Codec.name then some utf8Codec else none)

/-- Standard output goes to a file object of the caller's, standard error is captured in
part. -/
def capturedErrors : OutputFields Nat where
  capture := false
  captures := fun
    | .stdout => .unset
    | .stderr => .policy (.bounded 4)
  echo := false
  echoes := fun _ => none
  idle := false
  onLine := true
  stdin := none
  target := fun
    | .stdout => some (.fd (.object 7))
    | .stderr => none

theorem spawned_as_declared_capturedErrors :
    ∃ execution : SubprocessExecution Nat Unit,
      prepare numbered (some (.data [104, 105])) ⟨text "utf-8", false⟩ capturedErrors =
        .ok execution ∧
      (execution.spawns fun _ _ => 9).childEnd (.output .stdout) = .descriptor 7 ∧
      (execution.spawns fun _ _ => 9).childEnd (.output .stderr) = .pipe ∧
      capturedErrors.Spawned numbered (some (.data [104, 105])) execution (fun _ _ => 9) .wait4 :=
  ⟨_, rfl, rfl, rfl, @spawned_as_declared _ _ _ numbered _ ⟨text "utf-8", false⟩ capturedErrors
    _ rfl (fun _ _ => 9) .wait4⟩

end Cuprum.Stdio
