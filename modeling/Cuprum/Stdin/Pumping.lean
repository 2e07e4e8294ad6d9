import Cuprum.Stdin.Underway

namespace Cuprum.Stdin

open Cuprum.Effect

variable {κ : Type} {codec : Codec κ} {stream : StdinStream}

theorem send_ends {sink : StreamSink κ} {payload : List UInt8} {sending : Sending}
    (underway : Underway codec stream sink) (drained : sink.log.undrained = false)
    (ordered : sink.log.written ++ payload <+: codec.encoded none stream.chunks ++
      if sink.log.exhausted then codec.flushed none stream.chunks else []) :
    Ends (send payload sending)
      (fun _ after => sending.fault payload = none ∧ Underway codec stream after ∧
        after.log.undrained = false ∧ after.log.written = sink.log.written ++ payload ∧
          after.log.exhausted = sink.log.exhausted ∧ after.encoder = sink.encoder)
      (fun failure after => ∃ fault, sending.fault payload = some fault ∧
        Broken codec stream fault failure after)
      sink := by
  unfold send Sending.fault
  by_cases empty : payload = []
  · simp only [if_pos empty]
    apply Ends.returns
    exact ⟨trivial, underway, drained, by rw [empty, List.append_nil], rfl, rfl⟩
  simp only [if_neg empty]
  apply Ends.bind
  apply perform_ends
  · intro written
    have wrote : Underway codec stream (sink.noting ⟨.write payload, none⟩) :=
      underway.call rfl (Underway.next ordered) (by simp [Call.isPull])
    apply Ends.bind
    apply perform_ends
    · intro flowed
      have emptied : Underway codec stream
          ((sink.noting ⟨.write payload, none⟩).noting ⟨.drain, none⟩) :=
        wrote.call rfl (wrote.silent rfl (by simp)) (by simp [Call.isPull])
      apply perform_ends
      · intro observed
        refine ⟨by simp only [written, flowed, observed], emptied.call rfl
          (emptied.silent rfl (by simp)) (by simp [Call.isPull]), ?_, ?_, ?_, rfl⟩
        · simp only [StreamSink.noting_log, Log.undrained_snoc]
        · simp [Log.written, Call.payload]
        · simp [Log.exhausted]
      · intro error observed
        exact ⟨⟨.hook, error⟩, by simp only [written, flowed, observed],
          emptied.breaks rfl (emptied.silent rfl (by simp)) (by simp [Call.isPull])⟩
    · intro error stuck
      exact ⟨⟨.pipe, error⟩, by simp only [written, stuck],
        wrote.breaks rfl (wrote.silent rfl (by simp)) (by simp [Call.isPull])⟩
  · intro error written
    exact ⟨⟨.pipe, error⟩, by simp only [written],
      underway.breaks rfl (Underway.next ordered) (by simp [Call.isPull])⟩

/-- Between two chunks: what has been written and what is left make up the stream. -/
structure Waiting (codec : Codec κ) (stream : StdinStream) (rest : List (Chunk × Sending))
    (sink : StreamSink κ) : Prop extends Underway codec stream sink where
  drained : sink.log.undrained = false
  unexhausted : sink.log.exhausted = false
  encoded : sink.log.written ++ codec.encoded sink.encoder rest =
    codec.encoded none stream.chunks
  flushed : codec.flushed sink.encoder rest = codec.flushed none stream.chunks
  ahead : stream.faultFrom codec sink.encoder rest = stream.firstFault codec

theorem Waiting.next {sink : StreamSink κ} {chunk : Chunk} {sending : Sending}
    {rest : List (Chunk × Sending)} {payload : List UInt8} {held : Option κ}
    (waiting : Waiting codec stream ((chunk, sending) :: rest) sink)
    (made : codec.payload sink.encoder chunk = .ok (payload, held)) (log : Log)
    (written : log.written = sink.log.written) :
    log.written ++ payload <+: codec.encoded none stream.chunks ++
      if log.exhausted then codec.flushed none stream.chunks else [] := by
  have whole := waiting.encoded
  rw [Codec.encoded, made] at whole
  rw [← whole, written, ← List.append_assoc, List.append_assoc]
  exact List.prefix_append _ _

theorem writeChunk_ends {sink : StreamSink κ} {chunk : Chunk} {sending : Sending}
    (underway : Underway codec stream sink) (drained : sink.log.undrained = false)
    (ordered : ∀ payload held, codec.payload sink.encoder chunk = .ok (payload, held) →
      ∀ log : Log, log.written = sink.log.written →
        log.written ++ payload <+: codec.encoded none stream.chunks ++
          if log.exhausted then codec.flushed none stream.chunks else []) :
    Ends (writeChunk codec chunk sending)
      (fun _ after => ∃ payload,
        codec.payload sink.encoder chunk = .ok (payload, after.encoder) ∧
          sending.fault payload = none ∧ Underway codec stream after ∧
          after.log.undrained = false ∧ after.log.written = sink.log.written ++ payload ∧
          after.log.exhausted = sink.log.exhausted)
      (fun failure after => ∃ fault,
        (codec.payload sink.encoder chunk = .error fault ∨
          ∃ payload held, codec.payload sink.encoder chunk = .ok (payload, held) ∧
            sending.fault payload = some fault) ∧
          Broken codec stream fault failure after)
      sink := by
  unfold writeChunk
  cases chunk with
  | text text =>
      apply Ends.bind
      apply (encode_ends text false).mono
      · intro payload after encoded
        obtain ⟨made, more, encodes, started, log⟩ := encoded
        have same : after.log.written = sink.log.written := by
          rw [log, Log.written_append, encodes.quiet.written, List.append_nil]
        have still : after.log.exhausted = sink.log.exhausted := by
          rw [log, Log.exhausted_append, encodes.quiet.exhausted, Bool.or_false]
        have answer : codec.payload sink.encoder (.text text) = .ok (payload, after.encoder) := by
          simp only [Codec.payload, made]
        apply (send_ends (underway.encodes encodes started log)
          (by rw [log, encodes.quiet.undrained, drained])
          (ordered payload after.encoder answer after.log same)).mono
        · intro _ last sent
          obtain ⟨unharmed, going, emptied, written, exhausted, held⟩ := sent
          rw [← held] at answer
          exact ⟨payload, answer, unharmed, going, emptied, by rw [written, same],
            exhausted.trans still⟩
        · intro failure last failed
          obtain ⟨fault, harmed, broken⟩ := failed
          exact ⟨fault, .inr ⟨payload, after.encoder, answer, harmed⟩, broken⟩
      · intro failure after refused
        obtain ⟨error, unmade, rfl, started, more, call, encodes, boundary, quiet, log⟩ := refused
        exact ⟨⟨.encoder, error⟩, .inl (by simp only [Codec.payload, unmade]),
          underway.unencoded encodes boundary quiet started log⟩
  | bytes bytes =>
      apply Ends.bind
      apply Ends.returns
      have answer : codec.payload sink.encoder (.bytes bytes) = .ok (bytes, sink.encoder) := rfl
      apply (send_ends underway drained (ordered _ _ answer _ rfl)).mono
      · intro _ last sent
        obtain ⟨unharmed, going, emptied, written, exhausted, held⟩ := sent
        have kept : codec.payload sink.encoder (.bytes bytes) = .ok (bytes, last.encoder) := by
          rw [held]
          rfl
        exact ⟨bytes, kept, unharmed, going, emptied, written, exhausted⟩
      · intro failure last failed
        obtain ⟨fault, harmed, broken⟩ := failed
        exact ⟨fault, .inr ⟨bytes, sink.encoder, answer, harmed⟩, broken⟩
  | other typeName =>
      refine Ends.bind (Ends.updates (Ends.bind (Ends.updates (Ends.bind (Ends.raises ?_)))))
      refine ⟨⟨.chunk, invalidChunk typeName⟩, .inl rfl, ?_⟩
      have broken : Broken codec stream ⟨.chunk, invalidChunk typeName⟩
          (.raised (invalidChunk typeName))
          (sink.noting ⟨.reject typeName, some (invalidChunk typeName)⟩) :=
        underway.breaks rfl (underway.silent rfl (by simp)) (by simp [Call.isPull])
      exact { broken with }

/-- The producer is exhausted: all of the chunks are written, and only the flush is left. -/
structure Exhausted (codec : Codec κ) (stream : StdinStream) (sink : StreamSink κ) : Prop
    extends Underway codec stream sink where
  drained : sink.log.undrained = false
  exhausted : sink.log.exhausted = true
  written : sink.log.written = codec.encoded none stream.chunks
  flushed : codec.flushed sink.encoder [] = codec.flushed none stream.chunks
  ahead : stream.flushFault codec sink.encoder = stream.firstFault codec

/-- What the loop comes to short of its end. -/
def Breaks (codec : Codec κ) (stream : StdinStream) (failure : Failure)
    (sink : StreamSink κ) : Prop :=
  ∃ fault, stream.firstFault codec = some fault ∧ Broken codec stream fault failure sink

theorem fromProducer_ends {call : Call} {answer : Option Raised} {sink : StreamSink κ}
    {returned : Unit → StreamSink κ → Prop} {raised : Failure → StreamSink κ → Prop}
    (returns : answer = none → returned () (sink.noting ⟨call, none⟩))
    (raises : ∀ error, answer = some error →
      raised (Fault.failure ⟨.producer, error⟩) (sink.noting ⟨call, some error⟩)) :
    Ends (fromProducer (perform call answer)) returned raised sink := by
  apply Ends.handle
  apply perform_ends returns
  intro error answered
  have marked := raises error answered
  unfold Fault.failure at marked
  cases caught : error.isException with
  | true =>
      simp only [caught, if_true] at marked ⊢
      exact Ends.raises marked
  | false =>
      simp only [caught, Bool.false_eq_true, if_false] at marked ⊢
      exact Ends.raises marked

theorem Waiting.exhausts {sink : StreamSink κ} (waiting : Waiting codec stream [] sink)
    (ending : stream.ending = none) :
    Exhausted codec stream (sink.noting ⟨.anext none, none⟩) := by
  have encoded := waiting.encoded
  rw [Codec.encoded, List.append_nil] at encoded
  have written : Log.written (sink.log ++ [⟨.anext none, none⟩]) =
      codec.encoded none stream.chunks := by
    rw [Log.written_append, encoded]
    exact List.append_nil _
  have exhausted : Log.exhausted (sink.log ++ [⟨.anext none, none⟩]) = true := by
    rw [Log.exhausted_append, waiting.unexhausted]
    rfl
  have ahead := waiting.ahead
  simp only [StdinStream.faultFrom, ending] at ahead
  have ordered : Log.written (sink.log ++ [⟨.anext none, none⟩]) <+:
      codec.encoded none stream.chunks ++
        if Log.exhausted (sink.log ++ [⟨.anext none, none⟩]) then
          codec.flushed none stream.chunks
        else [] := by
    rw [written]
    exact List.prefix_append _ _
  exact {
    waiting.toUnderway.call rfl ordered fun _ => waiting.drained with
    drained := by rw [StreamSink.noting_log, Log.undrained_snoc]; exact waiting.drained
    exhausted := exhausted
    written := written
    flushed := waiting.flushed
    ahead := ahead }

theorem pumpChunks_ends (rest : List (Chunk × Sending)) {sink : StreamSink κ}
    (waiting : Waiting codec stream rest sink) :
    Ends (pumpChunks codec stream.ending rest) (fun _ => Exhausted codec stream)
      (Breaks codec stream) sink := by
  induction rest generalizing sink with
  | nil =>
      apply fromProducer_ends
      · exact waiting.exhausts
      · intro error ending
        have ahead := waiting.ahead
        simp only [StdinStream.faultFrom, ending] at ahead
        exact ⟨⟨.producer, error⟩, ahead.symm,
          waiting.toUnderway.breaks rfl (waiting.silent rfl (by simp)) fun _ => waiting.drained⟩
  | cons step rest induction =>
      obtain ⟨chunk, sending⟩ := step
      apply Ends.bind
      apply Ends.updates
      have pulled : Underway codec stream (sink.noting ⟨.anext (some chunk), none⟩) :=
        waiting.toUnderway.call rfl (waiting.silent rfl (by simp)) fun _ => waiting.drained
      have same : Log.written (sink.log ++ [⟨.anext (some chunk), none⟩]) =
          sink.log.written := by
        rw [Log.written_append]
        exact List.append_nil _
      have still : Log.exhausted (sink.log ++ [⟨.anext (some chunk), none⟩]) = false := by
        rw [Log.exhausted_append, waiting.unexhausted]
        rfl
      have drained : Log.undrained (sink.log ++ [⟨.anext (some chunk), none⟩]) = false := by
        rw [Log.undrained_snoc]
        exact waiting.drained
      have ahead := waiting.ahead
      have encoded := waiting.encoded
      have flushed := waiting.flushed
      apply Ends.bind
      apply (writeChunk_ends pulled drained fun payload held made log written =>
        waiting.next made log (written.trans same)).mono
      · intro _ after sent
        obtain ⟨payload, made, unharmed, going, emptied, written, exhausted⟩ := sent
        have made : codec.payload sink.encoder chunk = .ok (payload, after.encoder) := made
        simp only [StdinStream.faultFrom, made, unharmed] at ahead
        simp only [Codec.encoded, made] at encoded
        simp only [Codec.flushed, made] at flushed
        apply induction
        exact {
          going with
          drained := emptied
          unexhausted := exhausted.trans still
          encoded := by
            rw [written, StreamSink.noting_log, same, List.append_assoc]
            exact encoded
          flushed := flushed
          ahead := ahead }
      · intro failure after failed
        obtain ⟨fault, cause, broken⟩ := failed
        refine ⟨fault, ?_, broken⟩
        rcases cause with unmade | harmed
        · have unmade : codec.payload sink.encoder chunk = .error fault := unmade
          simp only [StdinStream.faultFrom, unmade] at ahead
          exact ahead.symm
        · obtain ⟨payload, held, made, harmed⟩ := harmed
          have made : codec.payload sink.encoder chunk = .ok (payload, held) := made
          simp only [StdinStream.faultFrom, made, harmed] at ahead
          exact ahead.symm

/-- Nothing went wrong, and nothing is left. -/
structure Streamed (codec : Codec κ) (stream : StdinStream) (sink : StreamSink κ) : Prop
    extends Underway codec stream sink where
  faultless : stream.firstFault codec = none

theorem flushEncoder_ends {sink : StreamSink κ} (exhausted : Exhausted codec stream sink) :
    Ends (flushEncoder codec stream.flush) (fun _ => Streamed codec stream)
      (Breaks codec stream) sink := by
  unfold flushEncoder
  apply Ends.bind
  apply Ends.reads
  have ahead := exhausted.ahead
  have flushed := exhausted.flushed
  cases held : sink.encoder with
  | none =>
      simp only [held, StdinStream.flushFault] at ahead
      apply Ends.returns
      exact { exhausted with faultless := ahead.symm }
  | some encoder =>
      simp only [held, StdinStream.flushFault, Codec.flushed] at ahead flushed
      apply Ends.bind
      apply (encode_ends [] true).mono
      · intro tail after encoded
        obtain ⟨made, more, encodes, started, log⟩ := encoded
        rw [held] at made
        simp only [made] at ahead flushed
        have ordered : after.log.written ++ tail <+: codec.encoded none stream.chunks ++
            if after.log.exhausted then codec.flushed none stream.chunks else [] := by
          rw [log, Log.written_append, encodes.quiet.written, List.append_nil,
            exhausted.written, Log.exhausted_append, exhausted.exhausted, flushed]
          exact List.prefix_refl _
        apply (send_ends (exhausted.toUnderway.encodes encodes started log)
          (by rw [log, encodes.quiet.undrained, exhausted.drained]) ordered).mono
        · intro _ last sent
          obtain ⟨unharmed, going, _⟩ := sent
          exact { going with faultless := ahead.symm.trans unharmed }
        · intro failure last failed
          obtain ⟨fault, harmed, broken⟩ := failed
          exact ⟨fault, ahead.symm.trans harmed, broken⟩
      · intro failure after refused
        obtain ⟨error, unmade, rfl, started, more, call, encodes, boundary, quiet, log⟩ := refused
        rw [held] at unmade
        simp only [unmade] at ahead
        exact ⟨⟨.encoder, error⟩, ahead.symm,
          exhausted.toUnderway.unencoded encodes boundary quiet started log⟩

/-- The streaming loop ends with the first thing to go wrong, or with nothing wrong. -/
theorem streamChunks_ends :
    Ends (streamChunks codec stream) (fun _ => Streamed codec stream)
      (Breaks codec stream) ({} : StreamSink κ) := by
  apply Ends.bind
  apply fromProducer_ends
  · intro startable
    apply Ends.bind
    apply Ends.updates
    apply Ends.bind
    have begun : Waiting codec stream stream.chunks
        { ({} : StreamSink κ).noting ⟨.aiter, none⟩ with started := true } := {
      orderly := Log.Orderly.nil.quiet (.single rfl)
      pumps := .single rfl
      clean := .single .aiter
      startable := startable
      started := rfl
      drained := rfl
      unexhausted := rfl
      encoded := rfl
      flushed := rfl
      ahead := by
        unfold StdinStream.firstFault
        rw [startable]
        rfl }
    apply (pumpChunks_ends stream.chunks begun).mono
    · intro _ after exhausted
      exact flushEncoder_ends exhausted
    · intro failure after breaks
      exact breaks
  · intro error failing
    refine ⟨⟨.producer, error⟩, ?_, ?_⟩
    · unfold StdinStream.firstFault
      rw [failing]
    · exact {
        failure := rfl
        orderly := Log.Orderly.nil.quiet (.single rfl)
        pumps := .single rfl
        last := ⟨[], .aiter, rfl, rfl, fun _ member => nomatch member⟩
        started := by rw [failing]; rfl }

end Cuprum.Stdin
