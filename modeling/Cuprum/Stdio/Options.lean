import Cuprum.StageStreams.Readers
import Cuprum.Startup.Ledger
import Cuprum.Stdio.Targets

namespace Cuprum.Stdio

open Cuprum.PathName (PurePath)
open Cuprum.Text
open Cuprum.Executable (text)
open Cuprum.StageStreams (CapturePolicy)
open Cuprum.Startup (Stream)

variable {Object Error : Type}

def streamName : Stream → Str
  | .stdout => text "stdout"
  | .stderr => text "stderr"

/-- How a caller spells what is captured of one stream; an `other` is none of them. -/
inductive Declared (Object : Type)
  | unset
  | flag (captures : Bool)
  | policy (named : CapturePolicy)
  | other (value : Payload Object)

def resolveCapture (host : Host Object Error) (shorthand : Bool) (field : Str) :
    Declared Object → Except (Fault Error) (Option CapturePolicy)
  | .unset => .ok (if shorthand then some .full else none)
  | .flag captures => .ok (if captures then some .full else none)
  | .policy named => .ok (some named)
  | .other value => .error (.valueError (text "RunOutputOptions " ++ field ++
      text " must be a capture policy, a bool, or None, got " ++ host.repr value))

/-- The fields a caller passes that decide what becomes of the child's streams. `idle` and
`onLine` say whether the run watches for silence, and observes lines. -/
structure OutputFields (Object : Type) where
  capture : Bool
  captures : Stream → Declared Object
  echo : Bool
  echoes : Stream → Option Bool
  idle : Bool
  onLine : Bool
  stdin : Option (StdioTarget Object)
  target : Stream → Option (StdioTarget Object)

/-- The captures stay as they were spelled, beside what they resolve to; the echoes are
resolved in place. -/
structure ResolvedFields (Object : Type) extends OutputFields Object where
  resolvedCapture : Stream → Option CapturePolicy

def ResolvedFields.resolvedEcho (options : ResolvedFields Object) (stream : Stream) : Bool :=
  (options.echoes stream).getD false

def ResolvedFields.reads (options : ResolvedFields Object) (stream : Stream) : Bool :=
  (options.resolvedCapture stream).isSome || options.resolvedEcho stream

def quoted (kind : Kind) : Str :=
  text "'" ++ text kind.value ++ text "'"

def rejectRedirectedStdin (target : Option (StdioTarget Object)) :
    Except (Fault Error) Unit :=
  match target with
  | none | some .pipe | some .inherit => .ok ()
  | some target => .error (.valueError (text "RunOutputOptions stdin cannot be redirected to " ++
      quoted target.kind ++ text ": pass the input itself as stdin=StdinInput(...) or " ++
        text "stdin=StdinStream(...) on the run call, and use RunOutputOptions.stdin only to choose " ++
        text "['inherit', 'pipe']."))

def rejectCapturedRedirection (stream : Stream) (options : ResolvedFields Object) :
    Except (Fault Error) Unit :=
  match options.target stream with
  | none | some .pipe => .ok ()
  | some target =>
      if options.reads stream then
        let name := streamName stream
        .error (.valueError (text "RunOutputOptions " ++ name ++
          text " cannot be redirected to " ++ quoted target.kind ++
          text " while capture or echo is enabled: there is no parent-side pipe to read. Set " ++
            text "capture_" ++ name ++ text "=False (or capture=False with capture_" ++ name ++
          text " unset) and echo_" ++ name ++ text "=False (or echo=False with echo_" ++ name ++
          text " unset), or leave " ++ name ++ text " unset."))
      else .ok ()

/-- Targets are compared as the paths they carry. -/
def shareOneOwnedPath : Option (StdioTarget Object) → Option (StdioTarget Object) → Bool
  | some (.path stdout), some (.path stderr) => stdout.str = stderr.str
  | _, _ => false

def rejectSharedOwnedPath (options : ResolvedFields Object) : Except (Fault Error) Unit :=
  if shareOneOwnedPath (options.target .stdout) (options.target .stderr) then
    .error (.valueError (text "RunOutputOptions stdout and stderr cannot share one path: each " ++
      text "open starts at offset 0, so the two streams would interleave unpredictably. Use " ++
      text "distinct paths, or StdioTarget.fd for a descriptor you manage."))
  else .ok ()

def validateStdioTargets (options : ResolvedFields Object) : Except (Fault Error) Unit := do
  rejectRedirectedStdin options.stdin
  rejectCapturedRedirection .stdout options
  rejectCapturedRedirection .stderr options
  rejectSharedOwnedPath options

/-- What no rule over the targets of a run refuses. -/
structure ResolvedFields.Honourable (options : ResolvedFields Object) : Prop where
  stdin : ∀ target ∈ options.stdin, target = .pipe ∨ target = .inherit
  piped : ∀ stream, options.reads stream = true → ∀ target ∈ options.target stream, target = .pipe
  apart : ∀ stdout stderr, options.target .stdout = some (.path stdout) →
    options.target .stderr = some (.path stderr) → stdout ≠ stderr

theorem rejectRedirectedStdin_ok {target : Option (StdioTarget Object)} :
    (rejectRedirectedStdin target : Except (Fault Error) Unit) = .ok () ↔
      ∀ named ∈ target, named = .pipe ∨ named = .inherit := by
  cases target with
  | none => exact ⟨fun _ _ among => (by cases among), fun _ => rfl⟩
  | some named =>
      simp only [Option.mem_some_iff, forall_eq']
      cases named with
      | pipe => exact ⟨fun _ => .inl rfl, fun _ => rfl⟩
      | inherit => exact ⟨fun _ => .inr rfl, fun _ => rfl⟩
      | path | fd =>
          refine ⟨fun accepts => (by cases accepts), ?_⟩
          rintro (wrong | wrong) <;> cases wrong

theorem rejectCapturedRedirection_ok {stream : Stream} {options : ResolvedFields Object} :
    (rejectCapturedRedirection stream options : Except (Fault Error) Unit) = .ok () ↔
      (options.reads stream = true → ∀ target ∈ options.target stream, target = .pipe) := by
  unfold rejectCapturedRedirection
  cases options.target stream with
  | none => exact ⟨fun _ _ _ among => (by cases among), fun _ => rfl⟩
  | some target =>
      simp only [Option.mem_some_iff, forall_eq']
      cases target with
      | pipe => exact ⟨fun _ _ => rfl, fun _ => rfl⟩
      | inherit | path | fd => cases options.reads stream <;> simp

theorem shareOneOwnedPath_iff {stdout stderr : Option (StdioTarget Object)} :
    shareOneOwnedPath stdout stderr = true ↔
      ∃ file, stdout = some (.path file) ∧ stderr = some (.path file) := by
  constructor
  · intro shares
    unfold shareOneOwnedPath at shares
    split at shares
    next first second =>
      have same := PurePath.str_injective (of_decide_eq_true shares)
      exact ⟨first, rfl, by rw [same]⟩
    next => cases shares
  · rintro ⟨file, rfl, rfl⟩
    exact decide_eq_true rfl

theorem rejectSharedOwnedPath_ok {options : ResolvedFields Object} :
    (rejectSharedOwnedPath options : Except (Fault Error) Unit) = .ok () ↔
      ∀ stdout stderr, options.target .stdout = some (.path stdout) →
        options.target .stderr = some (.path stderr) → stdout ≠ stderr := by
  unfold rejectSharedOwnedPath
  constructor
  · rintro accepts file _ first second rfl
    rw [if_pos (shareOneOwnedPath_iff.mpr ⟨file, first, second⟩)] at accepts
    cases accepts
  · intro apart
    apply if_neg
    intro shares
    obtain ⟨file, first, second⟩ := shareOneOwnedPath_iff.mp shares
    exact apart file file first second rfl

theorem bind_ok {α β ε : Type} {value : Except ε α} {next : α → Except ε β} {result : β} :
    (value >>= next) = .ok result ↔ ∃ first, value = .ok first ∧ next first = .ok result := by
  cases value with
  | error fault =>
      refine ⟨fun accepts => (by cases accepts), ?_⟩
      rintro ⟨_, wrong, _⟩
      cases wrong
  | ok first =>
      refine ⟨fun accepts => ⟨first, rfl, accepts⟩, ?_⟩
      rintro ⟨_, same, accepts⟩
      cases same
      exact accepts

theorem next_ok {ε : Type} {first next : Except ε Unit} :
    (first >>= fun _ => next) = .ok () ↔ first = .ok () ∧ next = .ok () :=
  bind_ok.trans ⟨fun ⟨_, begins, ends⟩ => ⟨begins, ends⟩, fun ⟨begins, ends⟩ => ⟨(), begins, ends⟩⟩

theorem validateStdioTargets_ok {options : ResolvedFields Object} :
    (validateStdioTargets options : Except (Fault Error) Unit) = .ok () ↔
      options.Honourable := by
  unfold validateStdioTargets
  rw [next_ok, next_ok, next_ok, rejectRedirectedStdin_ok, rejectCapturedRedirection_ok,
    rejectCapturedRedirection_ok, rejectSharedOwnedPath_ok]
  constructor
  · rintro ⟨stdin, stdout, stderr, apart⟩
    exact ⟨stdin, fun stream => by cases stream <;> assumption, apart⟩
  · intro honourable
    exact ⟨honourable.stdin, honourable.piped .stdout, honourable.piped .stderr,
      honourable.apart⟩

structure RunOutputOptions (Object : Type) extends ResolvedFields Object where
  honourable : toResolvedFields.Honourable

def OutputFields.resolve (fields : OutputFields Object) (stdout stderr : Option CapturePolicy) :
    ResolvedFields Object :=
  { fields with
    echoes := fun stream => some ((fields.echoes stream).getD fields.echo)
    resolvedCapture := fun
      | .stdout => stdout
      | .stderr => stderr }

/-- `RunOutputOptions.__post_init__`, as far as the targets go. -/
def RunOutputOptions.postInit (host : Host Object Error) (fields : OutputFields Object) :
    Except (Fault Error) (RunOutputOptions Object) := do
  let stdout ← resolveCapture host fields.capture (text "capture_stdout") (fields.captures .stdout)
  let stderr ← resolveCapture host fields.capture (text "capture_stderr") (fields.captures .stderr)
  let options := fields.resolve stdout stderr
  match valid : (validateStdioTargets options : Except (Fault Error) Unit) with
  | .ok _ => .ok ⟨options, validateStdioTargets_ok.mp valid⟩
  | .error fault => .error fault

/-- What a spelling comes to, where it is one. -/
def Declared.resolved (shorthand : Bool) : Declared Object → Option (Option CapturePolicy)
  | .unset => some (if shorthand then some .full else none)
  | .flag captures => some (if captures then some .full else none)
  | .policy named => some (some named)
  | .other _ => none

theorem resolveCapture_ok {host : Host Object Error} {shorthand : Bool} {field : Str}
    {declared : Declared Object} {policy : Option CapturePolicy} :
    resolveCapture host shorthand field declared = .ok policy ↔
      declared.resolved shorthand = some policy := by
  cases declared <;> simp [resolveCapture, Declared.resolved]

/-- The options are the fields resolved. -/
structure OutputFields.Resolves (fields : OutputFields Object) (options : ResolvedFields Object) :
    Prop where
  captures : ∀ stream, (fields.captures stream).resolved fields.capture =
    some (options.resolvedCapture stream)
  fields : options.toOutputFields = { fields with
    echoes := fun stream => some ((fields.echoes stream).getD fields.echo) }

theorem OutputFields.Resolves.unique {fields : OutputFields Object}
    {first second : ResolvedFields Object} (resolves : fields.Resolves first)
    (also : fields.Resolves second) : first = second := by
  cases first
  cases second
  congr 1
  · exact resolves.fields.trans also.fields.symm
  · funext stream
    exact Option.some.inj ((resolves.captures stream).symm.trans (also.captures stream))

theorem RunOutputOptions.ext_resolved {first second : RunOutputOptions Object}
    (same : first.toResolvedFields = second.toResolvedFields) : first = second := by
  cases first
  cases second
  cases same
  rfl

theorem RunOutputOptions.postInit_ok {host : Host Object Error} {fields : OutputFields Object}
    {options : RunOutputOptions Object} :
    postInit host fields = .ok options ↔ fields.Resolves options.toResolvedFields := by
  have builds : ∀ {stdout stderr},
      resolveCapture host fields.capture (text "capture_stdout") (fields.captures .stdout) =
        .ok stdout →
      resolveCapture host fields.capture (text "capture_stderr") (fields.captures .stderr) =
        .ok stderr →
      fields.Resolves (fields.resolve stdout stderr) := by
    intro stdout stderr first second
    refine ⟨fun stream => ?_, rfl⟩
    cases stream with
    | stdout => exact resolveCapture_ok.mp first
    | stderr => exact resolveCapture_ok.mp second
  unfold postInit
  simp only [bind_ok]
  constructor
  · rintro ⟨stdout, first, stderr, second, accepts⟩
    split at accepts
    next =>
      cases accepts
      exact builds first second
    next => cases accepts
  · intro resolves
    have first : resolveCapture host fields.capture (text "capture_stdout")
        (fields.captures .stdout) = .ok (options.resolvedCapture .stdout) :=
      resolveCapture_ok.mpr (resolves.captures .stdout)
    have second : resolveCapture host fields.capture (text "capture_stderr")
        (fields.captures .stderr) = .ok (options.resolvedCapture .stderr) :=
      resolveCapture_ok.mpr (resolves.captures .stderr)
    refine ⟨_, first, _, second, ?_⟩
    have same := (builds first second).unique resolves
    split
    next => exact congrArg _ (RunOutputOptions.ext_resolved same)
    next fault refuses =>
      rw [same, validateStdioTargets_ok.mpr options.honourable] at refuses
      cases refuses

end Cuprum.Stdio
