import Cuprum.Stdio.Encodings

namespace Cuprum.Stdio

open Cuprum.PathName
open Cuprum.Text
open Cuprum.Executable (posix text)
open Cuprum.StageStreams (CapturePolicy)
open Cuprum.Startup (Stream)

variable {Object Error Producer : Type}

/-- The source of a run's stdin. -/
inductive StdinSource (Producer : Type)
  | data (bytes : List UInt8)
  | stream (producer : Producer)

inductive StdinPlan (Producer : Type)
  | noStdin
  | payloadStdin (data : List UInt8)
  | streamStdin (stream : Producer)
  | pipeStdin

structure StdioBinding (Object : Type) where
  stream : Stream
  descriptor : Option Int := none
  isPipe : Bool := false
  ownedPath : Option (PurePath posix) := none
  borrowed : Option Object := none

structure ResolvedStdio (Object Producer : Type) where
  stdin : StdinPlan Producer
  stdout : StdioBinding Object
  stderr : StdioBinding Object

def ResolvedStdio.output (stdio : ResolvedStdio Object Producer) : Stream → StdioBinding Object
  | .stdout => stdio.stdout
  | .stderr => stdio.stderr

inductive PipeStream
  | stdin
  | output (stream : Stream)
  deriving DecidableEq

def StdinPlan.isPipe : StdinPlan Producer → Bool
  | .noStdin => false
  | _ => true

/-- The streams whose stdio is a pipe of the run's own. -/
def ResolvedStdio.pipes (stdio : ResolvedStdio Object Producer) : PipeStream → Bool
  | .stdin => stdio.stdin.isPipe
  | .output stream => (stdio.output stream).isPipe

section Resolve

variable (host : Host Object Error)

def ensureRedirectionSupported (stream : Stream) (kind : Kind) : Except (Fault Error) Unit :=
  if host.posixNamed then .ok ()
  else .error (.valueError (text "RunOutputOptions " ++ streamName stream ++
    text " cannot be redirected to " ++ quoted kind ++ text " on this platform: cuprum opens " ++
      text "and closes standard-stream descriptors with POSIX semantics, which it does not have " ++
      text "here. Leave stdout and stderr unset on this platform."))

def rejectNegativeDescriptor (stream : Stream) (descriptor : Int) (resource : Str) :
    Except (Fault Error) Unit :=
  if 0 ≤ descriptor then .ok ()
  else .error (.valueError (text "RunOutputOptions " ++ streamName stream ++
    text " resolved to the descriptor " ++ text (toString descriptor) ++ text " from " ++
    resource ++ text "; negative values are subprocess sentinels (-1 is PIPE, -2 is STDOUT, " ++
      text "-3 is DEVNULL), which would have subprocess act on the stream itself rather than bind " ++
      text "this one. Pass a non-negative descriptor."))

def noDescriptor (stream : Stream) (object : Object) : Fault Error :=
  .unsupportedOperation (text "RunOutputOptions " ++ streamName stream ++
    text " was given a file object that has no descriptor to inherit (" ++
    host.typeName object ++ text "); pass an int descriptor, or open a real file instead of " ++
      text "an in-memory object.")

/-- `borrowed.fileno()`. -/
def filenoOf (stream : Stream) (object : Object) : Except (Fault Error) Int :=
  match host.fileno object with
  | .ok (some descriptor) => .ok descriptor
  | .ok none => .error (noDescriptor host stream object)
  | .error error => .error (.raised error)

def resolveStdioBinding (stream : Stream) :
    StdioTarget Object → Except (Fault Error) (StdioBinding Object)
  | .pipe => .ok { stream, isPipe := true }
  | .inherit => .ok { stream }
  | .path file => do
      ensureRedirectionSupported host stream .path
      .ok { stream, ownedPath := some file }
  | .fd (.descriptor fd) => do
      ensureRedirectionSupported host stream .fd
      rejectNegativeDescriptor stream fd (text "int")
      .ok { stream, descriptor := some (fd : Int) }
  | .fd (.str value) => do
      ensureRedirectionSupported host stream .fd
      .error (.raised (host.filenoOfStr value))
  | .fd (.object object) => do
      ensureRedirectionSupported host stream .fd
      let descriptor ← filenoOf host stream object
      rejectNegativeDescriptor stream descriptor (host.typeName object)
      .ok { stream, descriptor := some descriptor, borrowed := some object }

/-- A target left unset is a pipe. -/
def resolveOutputBinding (stream : Stream) :
    Option (StdioTarget Object) → Except (Fault Error) (StdioBinding Object)
  | none => .ok { stream, isPipe := true }
  | some target => resolveStdioBinding host stream target

def wantsStdinPipe (options : OutputFields Object) : Bool :=
  match options.stdin with
  | some .pipe => true
  | _ => false

def resolveStdinPlan (source : Option (StdinSource Producer))
    (options : OutputFields Object) : StdinPlan Producer :=
  match source with
  | some (.stream producer) => .streamStdin producer
  | some (.data bytes) => .payloadStdin bytes
  | none => if wantsStdinPipe options then .pipeStdin else .noStdin

def resolveStdio (source : Option (StdinSource Producer)) (options : RunOutputOptions Object) :
    Except (Fault Error) (ResolvedStdio Object Producer) := do
  let stdout ← resolveOutputBinding host .stdout (options.target .stdout)
  let stderr ← resolveOutputBinding host .stderr (options.target .stderr)
  .ok { stdin := resolveStdinPlan source options.toOutputFields, stdout, stderr }

def rejectContestedStdin (target : Option (StdioTarget Object)) (hasSource : Bool) :
    Except (Fault Error) Unit :=
  match hasSource, target with
  | true, some .inherit => .error (.valueError (text "RunOutputOptions stdin names " ++
      text "StdioTarget.inherit(), but the run call also supplies a stdin source; the two disagree " ++
      text "about where the child's input comes from. Pass the input or inherit the parent's " ++
      text "stream, not both."))
  | _, _ => .ok ()

/-- What the spawn and the readers of a run go by. -/
structure SubprocessExecution (Object Producer : Type) where
  capture : Stream → Option CapturePolicy
  echo : Stream → Bool
  idle : Bool
  onLine : Bool
  stdio : ResolvedStdio Object Producer

/-- `_build_subprocess_execution`, as far as the streams go. -/
def buildSubprocessExecution (source : Option (StdinSource Producer)) (rendering : Rendering)
    (options : RunOutputOptions Object) :
    Except (Fault Error) (SubprocessExecution Object Producer) := do
  rejectContestedStdin options.stdin source.isSome
  rejectUnsupportedBoundedCaptures host options.resolvedCapture rendering
  let stdio ← resolveStdio host source options
  .ok { capture := options.resolvedCapture, echo := options.resolvedEcho, idle := options.idle,
        onLine := options.onLine, stdio }

/-- From the fields a caller passes to a run prepared for its spawn. -/
def prepare (source : Option (StdinSource Producer)) (rendering : Rendering)
    (fields : OutputFields Object) :
    Except (Fault Error) (SubprocessExecution Object Producer) := do
  let options ← RunOutputOptions.postInit host fields
  buildSubprocessExecution host source rendering options

end Resolve

/-- The binding is one a child can be given, and stands for the target. -/
inductive Host.Binds (host : Host Object Error) (stream : Stream) :
    Option (StdioTarget Object) → StdioBinding Object → Prop
  | unset : host.Binds stream none { stream, isPipe := true }
  | pipe : host.Binds stream (some .pipe) { stream, isPipe := true }
  | inherit : host.Binds stream (some .inherit) { stream }
  | path (file : PurePath posix) (redirects : host.posixNamed = true) :
      host.Binds stream (some (.path file)) { stream, ownedPath := some file }
  | descriptor (fd : Nat) (redirects : host.posixNamed = true) :
      host.Binds stream (some (.fd (.descriptor fd))) { stream, descriptor := some (fd : Int) }
  | object (object : Object) (fd : Nat) (redirects : host.posixNamed = true)
      (answers : host.fileno object = .ok (some (fd : Int))) :
      host.Binds stream (some (.fd (.object object)))
        { stream, descriptor := some (fd : Int), borrowed := some object }

theorem ensureRedirectionSupported_ok {host : Host Object Error} {stream : Stream} {kind : Kind} :
    ensureRedirectionSupported host stream kind = .ok () ↔ host.posixNamed = true := by
  unfold ensureRedirectionSupported
  cases host.posixNamed <;> simp

theorem rejectNegativeDescriptor_ok {stream : Stream} {descriptor : Int} {resource : Str} :
    (rejectNegativeDescriptor stream descriptor resource : Except (Fault Error) Unit) = .ok () ↔
      0 ≤ descriptor := by
  unfold rejectNegativeDescriptor
  split
  next real => exact ⟨fun _ => real, fun _ => rfl⟩
  next negative => exact ⟨fun wrong => (by cases wrong), fun real => absurd real negative⟩

theorem filenoOf_ok {host : Host Object Error} {stream : Stream} {object : Object}
    {descriptor : Int} :
    filenoOf host stream object = .ok descriptor ↔
      host.fileno object = .ok (some descriptor) := by
  unfold filenoOf
  cases host.fileno object with
  | error error => simp
  | ok answer => cases answer <;> simp

theorem resolveOutputBinding_ok {host : Host Object Error} {stream : Stream}
    {target : Option (StdioTarget Object)} {binding : StdioBinding Object} :
    resolveOutputBinding host stream target = .ok binding ↔
      host.Binds stream target binding := by
  constructor
  · intro resolves
    cases target with
    | none =>
        cases resolves
        exact .unset
    | some target =>
        cases target with
        | pipe =>
            cases resolves
            exact .pipe
        | inherit =>
            cases resolves
            exact .inherit
        | path file =>
            obtain ⟨_, supported, same⟩ := bind_ok.mp resolves
            cases same
            exact .path file (ensureRedirectionSupported_ok.mp supported)
        | fd resource =>
            cases resource with
            | descriptor fd =>
                obtain ⟨_, supported, accepts⟩ := bind_ok.mp resolves
                obtain ⟨_, _, same⟩ := bind_ok.mp accepts
                cases same
                exact .descriptor fd (ensureRedirectionSupported_ok.mp supported)
            | str value =>
                obtain ⟨_, _, wrong⟩ := bind_ok.mp resolves
                cases wrong
            | object object =>
                obtain ⟨_, supported, accepts⟩ := bind_ok.mp resolves
                obtain ⟨descriptor, answers, accepts⟩ := bind_ok.mp accepts
                obtain ⟨_, real, same⟩ := bind_ok.mp accepts
                cases same
                obtain ⟨fd, rfl⟩ :=
                  Int.eq_ofNat_of_zero_le (rejectNegativeDescriptor_ok.mp real)
                exact .object object fd (ensureRedirectionSupported_ok.mp supported)
                  (filenoOf_ok.mp answers)
  · intro binds
    cases binds with
    | unset | pipe | inherit => rfl
    | path file redirects =>
        exact bind_ok.mpr ⟨(), ensureRedirectionSupported_ok.mpr redirects, rfl⟩
    | descriptor fd redirects =>
        refine bind_ok.mpr ⟨(), ensureRedirectionSupported_ok.mpr redirects, ?_⟩
        exact bind_ok.mpr ⟨(), rejectNegativeDescriptor_ok.mpr (Int.natCast_nonneg fd), rfl⟩
    | object object fd redirects answers =>
        refine bind_ok.mpr ⟨(), ensureRedirectionSupported_ok.mpr redirects, ?_⟩
        refine bind_ok.mpr ⟨fd, filenoOf_ok.mpr answers, ?_⟩
        exact bind_ok.mpr ⟨(), rejectNegativeDescriptor_ok.mpr (Int.natCast_nonneg fd), rfl⟩

end Cuprum.Stdio
