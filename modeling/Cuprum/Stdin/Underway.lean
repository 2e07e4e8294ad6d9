import Cuprum.Stdin.Scan

namespace Cuprum.Stdin

open Cuprum.Effect Cuprum.Text

variable {κ : Type} {codec : Codec κ} {stream : StdinStream}

/-- The calls of the streaming loop are those that have a boundary. -/
def Log.Pumps (log : Log) : Prop :=
  ∀ event ∈ log, event.call.boundary.isSome = true

def Log.Clean (log : Log) : Prop :=
  ∀ event ∈ log, event.fault = none

def Log.Encodes (log : Log) : Prop :=
  ∀ event ∈ log, event = ⟨.buildEncoder, none⟩ ∨ event = ⟨.encode, none⟩

namespace Log

variable {log more : Log}

theorem Encodes.nil : Encodes [] :=
  fun _ member => nomatch member

theorem Encodes.quiet (encodes : more.Encodes) : more.Quiet := by
  intro event member
  rcases encodes event member with rfl | rfl <;> rfl

theorem Encodes.clean (encodes : more.Encodes) : more.Clean := by
  intro event member
  rcases encodes event member with rfl | rfl <;> rfl

theorem Encodes.pumps (encodes : more.Encodes) : more.Pumps := by
  intro event member
  rcases encodes event member with rfl | rfl <;> rfl

theorem Clean.append (first : log.Clean) (second : more.Clean) : Clean (log ++ more) :=
  fun event member => (List.mem_append.mp member).elim (first event) (second event)

theorem Pumps.append (first : log.Pumps) (second : more.Pumps) : Pumps (log ++ more) :=
  fun event member => (List.mem_append.mp member).elim (first event) (second event)

theorem Clean.single (call : Call) : Clean [⟨call, none⟩] := by
  intro event member
  rw [List.mem_singleton.mp member]

theorem Pumps.single {event : Event} (pumps : event.call.boundary.isSome = true) :
    Pumps [event] := by
  intro other member
  rwa [List.mem_singleton.mp member]

end Log

/-- The loop has started, and nothing has gone wrong yet. -/
structure Underway (codec : Codec κ) (stream : StdinStream) (sink : StreamSink κ) : Prop where
  orderly : sink.log.Orderly codec stream
  pumps : sink.log.Pumps
  clean : sink.log.Clean
  startable : stream.start = none
  started : sink.started = true

/-- The loop was left with a fault, which the last of the calls had. -/
structure Broken (codec : Codec κ) (stream : StdinStream) (fault : Fault)
    (failure : Failure) (sink : StreamSink κ) : Prop where
  failure : failure = fault.failure
  orderly : sink.log.Orderly codec stream
  pumps : sink.log.Pumps
  last : ∃ earlier call, sink.log = earlier ++ [⟨call, some fault.error⟩] ∧
    call.boundary = some fault.boundary ∧ Log.Clean earlier
  started : sink.started = stream.start.isNone

def StreamSink.noting (sink : StreamSink κ) (event : Event) : StreamSink κ :=
  { sink with log := sink.log ++ [event] }

section Noting

variable {sink : StreamSink κ} {event : Event}

@[simp] theorem StreamSink.noting_log : (sink.noting event).log = sink.log ++ [event] :=
  rfl

theorem perform_ends {call : Call} {answer : Option Raised}
    {returned : Unit → StreamSink κ → Prop} {raised : Failure → StreamSink κ → Prop}
    (returns : answer = none → returned () (sink.noting ⟨call, none⟩))
    (raises : ∀ error, answer = some error →
      raised (.raised error) (sink.noting ⟨call, some error⟩)) :
    Ends (perform call answer) returned raised sink := by
  apply Ends.bind
  apply Ends.updates
  cases answer with
  | none => exact returns rfl
  | some error => exact raises error rfl

end Noting

namespace Underway

variable {sink : StreamSink κ}

theorem call {call : Call} (underway : Underway codec stream sink)
    (boundary : call.boundary.isSome = true)
    (ordered : Log.written (sink.log ++ [⟨call, none⟩]) <+:
      codec.encoded none stream.chunks ++
        if Log.exhausted (sink.log ++ [⟨call, none⟩]) then codec.flushed none stream.chunks
        else [])
    (paced : call.isPull = true → sink.log.undrained = false) :
    Underway codec stream (sink.noting ⟨call, none⟩) where
  orderly := underway.orderly.snoc ordered paced
  pumps := underway.pumps.append (.single boundary)
  clean := underway.clean.append (.single call)
  startable := underway.startable
  started := underway.started

/-- A call that raises is the last. -/
theorem breaks {call : Call} {fault : Fault} (underway : Underway codec stream sink)
    (boundary : call.boundary = some fault.boundary)
    (ordered : Log.written (sink.log ++ [⟨call, some fault.error⟩]) <+:
      codec.encoded none stream.chunks ++
        if Log.exhausted (sink.log ++ [⟨call, some fault.error⟩]) then
          codec.flushed none stream.chunks
        else [])
    (paced : call.isPull = true → sink.log.undrained = false) :
    Broken codec stream fault fault.failure (sink.noting ⟨call, some fault.error⟩) where
  failure := rfl
  orderly := underway.orderly.snoc ordered paced
  pumps := underway.pumps.append (.single (by rw [boundary]; rfl))
  last := ⟨sink.log, call, rfl, boundary, underway.clean⟩
  started := by
    rw [underway.startable]
    exact underway.started

theorem silent {event : Event} (underway : Underway codec stream sink)
    (nothing : event.call.payload = []) (more : event ≠ ⟨.anext none, none⟩) :
    Log.written (sink.log ++ [event]) <+: codec.encoded none stream.chunks ++
      if Log.exhausted (sink.log ++ [event]) then codec.flushed none stream.chunks
      else [] := by
  have same : Log.written [event] = [] := by
    simpa [Log.written] using nothing
  have further : Log.exhausted [event] = false := by
    simpa [Log.exhausted] using more
  rw [Log.written_append, same, List.append_nil, Log.exhausted_append, further, Bool.or_false]
  exact underway.orderly.whole

theorem next {payload : List UInt8} {answer : Option Raised}
    (ordered : sink.log.written ++ payload <+: codec.encoded none stream.chunks ++
      if sink.log.exhausted then codec.flushed none stream.chunks else []) :
    Log.written (sink.log ++ [⟨.write payload, answer⟩]) <+:
      codec.encoded none stream.chunks ++
        if Log.exhausted (sink.log ++ [⟨.write payload, answer⟩]) then
          codec.flushed none stream.chunks
        else [] := by
  have same : Log.written [⟨.write payload, answer⟩] = payload := List.append_nil payload
  have further : Log.exhausted [⟨.write payload, answer⟩] = false := rfl
  rw [Log.written_append, same, Log.exhausted_append, further, Bool.or_false]
  exact ordered

theorem encodes {after : StreamSink κ} {more : Log} (underway : Underway codec stream sink)
    (encodes : more.Encodes) (started : after.started = sink.started)
    (log : after.log = sink.log ++ more) : Underway codec stream after where
  orderly := log ▸ underway.orderly.quiet encodes.quiet
  pumps := log ▸ underway.pumps.append encodes.pumps
  clean := log ▸ underway.clean.append encodes.clean
  startable := underway.startable
  started := started.trans underway.started

theorem unencoded {after : StreamSink κ} {more : Log} {call : Call} {error : Raised}
    (underway : Underway codec stream sink) (encodes : more.Encodes)
    (boundary : call.boundary = some .encoder) (quiet : call.isQuiet = true)
    (started : after.started = sink.started)
    (log : after.log = sink.log ++ more ++ [⟨call, some error⟩]) :
    Broken codec stream ⟨.encoder, error⟩ (.raised error) after := by
  have going : Underway codec stream { after with log := sink.log ++ more } :=
    underway.encodes encodes started rfl
  have nothing : call.payload = [] ∧ call.isPull = false := by
    cases call <;> simp_all [Call.isQuiet, Call.payload, Call.isPull]
  have broken : Broken codec stream ⟨.encoder, error⟩ (.raised error)
      (StreamSink.noting { after with log := sink.log ++ more } ⟨call, some error⟩) :=
    going.breaks boundary (going.silent nothing.1 (by simp))
      (fun pulls => absurd (nothing.2.symm.trans pulls) Bool.false_ne_true)
  have same : (StreamSink.noting { after with log := sink.log ++ more } ⟨call, some error⟩) =
      after := by
    simp only [StreamSink.noting, ← log]
  exact same ▸ broken

end Underway

/-- What the encoder makes of a text, and that only it is called. -/
theorem encoder_ends {sink : StreamSink κ} :
    Ends (encoder codec)
      (fun encoder after => sink.encoder.elim codec.build .ok = .ok encoder ∧
        ∃ more : Log, more.Encodes ∧
          after = { sink with encoder := some encoder, log := sink.log ++ more })
      (fun failure after => ∃ error, sink.encoder.elim codec.build .ok = .error error ∧
        failure = .raised error ∧ after.started = sink.started ∧
          after.log = sink.log ++ [⟨.buildEncoder, some error⟩])
      sink := by
  unfold encoder
  apply Ends.bind
  apply Ends.reads
  cases held : sink.encoder with
  | some encoder =>
      apply Ends.returns
      refine ⟨rfl, [], .nil, ?_⟩
      rw [List.append_nil, ← held]
  | none =>
      cases built : codec.build with
      | ok encoder =>
          refine Ends.bind (Ends.updates (Ends.bind (Ends.updates (Ends.returns ?_))))
          refine ⟨rfl, [⟨.buildEncoder, none⟩], ?_, rfl⟩
          intro event member
          exact .inl (List.mem_singleton.mp member)
      | error error =>
          refine Ends.bind (Ends.updates ?_)
          by_cases unknown : error.kind = .lookup
          · simp only [if_pos unknown]
            exact Ends.bind (Ends.updates (Ends.raises ⟨error, rfl, rfl, rfl, rfl⟩))
          · simp only [if_neg unknown]
            exact Ends.bind (Ends.returns (Ends.raises ⟨error, rfl, rfl, rfl, rfl⟩))

theorem encode_ends {sink : StreamSink κ} (text : List CodePoint) (final : Bool) :
    Ends (encode codec text final)
      (fun payload after => codec.text sink.encoder text final = .ok (payload, after.encoder) ∧
        ∃ more : Log, more.Encodes ∧ after.started = sink.started ∧
          after.log = sink.log ++ more)
      (fun failure after => ∃ error, codec.text sink.encoder text final = .error error ∧
        failure = .raised error ∧ after.started = sink.started ∧
          ∃ (more : Log) (call : Call), more.Encodes ∧ call.boundary = some .encoder ∧
            call.isQuiet = true ∧ after.log = sink.log ++ more ++ [⟨call, some error⟩])
      sink := by
  unfold encode
  refine Ends.bind (Ends.reads (Ends.bind (Ends.updates (Ends.bind ?_))))
  apply encoder_ends.mono
  · intro encoder held asked
    obtain ⟨built, more, encodes, rfl⟩ := asked
    have known : sink.encoder.elim codec.build .ok = .ok encoder := built
    unfold Codec.text
    rw [known]
    cases answer : codec.encode encoder text final with
    | error error =>
        refine Ends.bind (Ends.updates (Ends.raises ?_))
        exact ⟨error, by simp only [answer], rfl, rfl, more, .encode, encodes, rfl, rfl, rfl⟩
    | ok result =>
        refine Ends.bind (Ends.updates (Ends.bind (Ends.updates (Ends.bind (Ends.updates
          (Ends.returns ?_))))))
        refine ⟨by simp only [answer], more ++ [⟨.encode, none⟩], ?_, rfl,
          List.append_assoc _ _ _⟩
        intro event member
        rcases List.mem_append.mp member with earlier | last
        · exact encodes event earlier
        · exact .inr (List.mem_singleton.mp last)
  · intro failure after refused
    obtain ⟨error, unbuilt, rfl, started, log⟩ := refused
    have unknown : sink.encoder.elim codec.build .ok = .error error := unbuilt
    refine ⟨error, ?_, rfl, started, [], .buildEncoder, .nil, rfl, rfl, ?_⟩
    · unfold Codec.text
      rw [unknown]
    · rw [log, List.append_nil]

end Cuprum.Stdin
