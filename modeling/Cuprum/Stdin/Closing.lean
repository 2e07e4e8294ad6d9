import Cuprum.Stdin.Pumping

namespace Cuprum.Stdin

open Cuprum.Effect

variable {κ : Type} {codec : Codec κ} {stream : StdinStream}

/-- What is taken for the child closing its input, by its class alone. -/
def Fault.early (fault : Fault) : Bool :=
  fault.boundary != .producer && isEarlyClose fault.error

namespace Call

def isReporting : Call → Bool
  | report .. | observe .stdioError => true
  | _ => false

def isClosing : Call → Bool
  | waitClosed | abort | observe .stdinError => true
  | stdinError operation _ => operation == "close"
  | _ => false

end Call

/-- The calls of the loop, and what was said of how it ended. -/
structure Judged (codec : Codec κ) (stream : StdinStream) (failed : Bool)
    (body told : Log) : Prop where
  orderly : body.Orderly codec stream
  pumps : body.Pumps
  faultless : stream.firstFault codec = none → body.Clean ∧ told = []
  last : ∀ fault, stream.firstFault codec = some fault →
    ∃ earlier call, body = earlier ++ [⟨call, some fault.error⟩] ∧
      call.boundary = some fault.boundary ∧ Log.Clean earlier
  early : ∀ fault, stream.firstFault codec = some fault → fault.early = true →
    ∃ answer, told = [⟨.stdinError "early_close" fault.error.name, none⟩,
      ⟨.observe .stdinError, answer⟩] ∧ (answer ≠ none → failed = true)
  failure : ∀ fault, stream.firstFault codec = some fault → fault.early = false →
    failed = true ∧ ∀ event ∈ told, event.call.isReporting = true

theorem Judged.fail {failed : Bool} {body told : Log}
    (judged : Judged codec stream failed body told) : Judged codec stream true body told where
  orderly := judged.orderly
  pumps := judged.pumps
  faultless := judged.faultless
  last := judged.last
  early := by
    intro fault first early
    obtain ⟨answer, said, _⟩ := judged.early fault first early
    exact ⟨answer, said, fun _ => rfl⟩
  failure := by
    intro fault first late
    exact ⟨rfl, (judged.failure fault first late).2⟩

theorem reportBoundary_ends {sink : StreamSink κ} {error : Raised}
    {category : StdioFailureCategory} {operation : String} {observe : Option Raised}
    {returned : Unit → StreamSink κ → Prop} {raised : Failure → StreamSink κ → Prop}
    (comes : ∀ after more, after.log = sink.log ++ more →
      (∀ event ∈ more, event.call.isReporting = true) → after.started = sink.started →
        returned () after ∧ ∀ failure, raised failure after) :
    Ends (reportBoundary error category operation observe) returned raised sink := by
  have reached : ∀ answer, returned () ((sink.noting
      ⟨.report category operation error.name, none⟩).noting ⟨.observe .stdioError, answer⟩) ∧
      ∀ failure, raised failure ((sink.noting
        ⟨.report category operation error.name, none⟩).noting
          ⟨.observe .stdioError, answer⟩) := by
    intro answer
    refine comes _ [⟨.report category operation error.name, none⟩,
      ⟨.observe .stdioError, answer⟩] (List.append_assoc _ _ _) ?_ rfl
    intro event member
    rcases List.mem_pair.mp member with rfl | rfl <;> rfl
  apply Ends.bind
  apply Ends.updates
  apply Ends.handle
  apply perform_ends
  · intro _
    exact (reached none).1
  · intro hooks _
    cases quiet : hooks.isSuppressed with
    | true =>
        simp only [quiet, if_true]
        exact Ends.returns (reached (some hooks)).1
    | false =>
        simp only [quiet, Bool.false_eq_true, if_false]
        exact Ends.raises ((reached (some hooks)).2 _)

theorem isException_of_isEarlyClose {error : Raised} (early : isEarlyClose error = true) :
    error.isException = true := by
  unfold isEarlyClose Raised.isOsError at early
  unfold Raised.isException
  cases kind : error.kind <;> simp_all

/-- What follows on the loop, once it is judged. -/
def Verdict (codec : Codec κ) (stream : StdinStream) (failed : Bool)
    (sink after : StreamSink κ) : Prop :=
  ∃ told, after.log = sink.log ++ told ∧ Judged codec stream failed sink.log told ∧
    after.started = sink.started

namespace Broken

variable {fault : Fault} {failure : Failure} {sink after : StreamSink κ}

theorem judged {failed : Bool} {told : Log} (broken : Broken codec stream fault failure sink)
    (first : stream.firstFault codec = some fault)
    (early : fault.early = true →
      ∃ answer, told = [⟨.stdinError "early_close" fault.error.name, none⟩,
        ⟨.observe .stdinError, answer⟩] ∧ (answer ≠ none → failed = true))
    (late : fault.early = false →
      failed = true ∧ ∀ event ∈ told, event.call.isReporting = true) :
    Judged codec stream failed sink.log told where
  orderly := broken.orderly
  pumps := broken.pumps
  faultless := fun none => nomatch first.symm.trans none
  last := by
    intro other same
    cases first.symm.trans same
    exact broken.last
  early := by
    intro other same
    cases first.symm.trans same
    exact early
  failure := by
    intro other same
    cases first.symm.trans same
    exact late

/-- A fault that is not taken for an early close is a failure, whatever is told of it. -/
theorem fails {told : Log} (broken : Broken codec stream fault failure sink)
    (first : stream.firstFault codec = some fault) (late : fault.early = false)
    (reporting : ∀ event ∈ told, event.call.isReporting = true)
    (log : after.log = sink.log ++ told) (started : after.started = sink.started) :
    Verdict codec stream true sink after :=
  ⟨told, log, broken.judged first (fun early => nomatch late.symm.trans early)
    fun _ => ⟨rfl, reporting⟩, started⟩

theorem reports {category : StdioFailureCategory} {operation : String} {surfaced : Failure}
    {observe : Option Raised} (broken : Broken codec stream fault failure sink)
    (first : stream.firstFault codec = some fault) (late : fault.early = false) :
    Ends (reportBoundary fault.error category operation observe)
      (fun _ => Ends (throw surfaced : Writer κ Unit)
        (fun _ => Verdict codec stream false sink) (fun _ => Verdict codec stream true sink))
      (fun _ => Verdict codec stream true sink) sink := by
  apply reportBoundary_ends
  intro after more log reporting started
  have fails := broken.fails first late reporting log started
  exact ⟨Ends.raises fails, fun _ => fails⟩

theorem closesEarly {observe : Option Raised} (broken : Broken codec stream fault failure sink)
    (first : stream.firstFault codec = some fault) (early : fault.early = true) :
    Ends (emitStdinError fault.error "early_close" observe)
      (fun _ => Verdict codec stream false sink) (fun _ => Verdict codec stream true sink)
      sink := by
  have told : ∀ answer failed, (answer ≠ none → failed = true) →
      Verdict codec stream failed sink ((sink.noting
        ⟨.stdinError "early_close" fault.error.name, none⟩).noting
          ⟨.observe .stdinError, answer⟩) := by
    intro answer failed raises
    exact ⟨_, List.append_assoc _ _ _, broken.judged first
      (fun _ => ⟨answer, rfl, raises⟩) (fun late => nomatch early.symm.trans late), rfl⟩
  apply Ends.bind
  apply Ends.updates
  apply perform_ends
  · intro _
    exact told none false (absurd rfl)
  · intro error _
    exact told (some error) true fun _ => rfl

end Broken

theorem classify_ends {fault : Fault} {failure : Failure} {sink : StreamSink κ}
    (first : stream.firstFault codec = some fault)
    (broken : Broken codec stream fault failure sink) :
    Ends (classify stream failure) (fun _ => Verdict codec stream false sink)
      (fun _ => Verdict codec stream true sink) sink := by
  have passes : fault.early = false → Verdict codec stream true sink sink := by
    intro late
    have log : sink.log = sink.log ++ [] := (List.append_nil _).symm
    exact broken.fails first late (fun event member => absurd member List.not_mem_nil) log rfl
  obtain rfl := broken.failure
  by_cases producer : fault.boundary = .producer
  · have late : fault.early = false := by simp [Fault.early, producer]
    unfold Fault.failure
    simp only [producer]
    cases caught : fault.error.isException with
    | true =>
        simp only [if_true, classify]
        exact Ends.bind (broken.reports first late)
    | false =>
        simp only [Bool.false_eq_true, if_false, classify, caught]
        exact Ends.raises (passes late)
  · have own : fault.failure = .raised fault.error := by
      unfold Fault.failure
      cases boundary : fault.boundary <;> first | rfl | exact absurd boundary producer
    have class_ : fault.early = isEarlyClose fault.error := by
      simp [Fault.early, producer]
    rw [own, classify]
    cases early : isEarlyClose fault.error with
    | true =>
        simp only [isException_of_isEarlyClose early, if_true]
        exact broken.closesEarly first (class_.trans early)
    | false =>
        cases caught : fault.error.isException with
        | true =>
            simp only [if_true, Bool.false_eq_true, if_false]
            refine Ends.bind (Ends.reads (Ends.bind ?_))
            exact broken.reports first (class_.trans early)
        | false =>
            simp only [Bool.false_eq_true, if_false]
            exact Ends.raises (passes (class_.trans early))

def Settled (codec : Codec κ) (stream : StdinStream) (failed : Bool)
    (sink : StreamSink κ) : Prop :=
  ∃ body told, sink.log = body ++ told ∧ Judged codec stream failed body told ∧
    sink.started = stream.start.isNone

theorem classified_ends :
    Ends (tryCatch (streamChunks codec stream) (classify stream))
      (fun _ => Settled codec stream false) (fun _ => Settled codec stream true)
      ({} : StreamSink κ) := by
  apply Ends.handle
  apply streamChunks_ends.mono
  · intro _ after streamed
    refine ⟨after.log, [], (List.append_nil _).symm, ?_, ?_⟩
    · exact {
        orderly := streamed.orderly
        pumps := streamed.pumps
        faultless := fun _ => ⟨streamed.clean, rfl⟩
        last := fun fault first => nomatch streamed.faultless.symm.trans first
        early := fun fault first => nomatch streamed.faultless.symm.trans first
        failure := fun fault first => nomatch streamed.faultless.symm.trans first }
    · rw [streamed.startable]
      exact streamed.started
  · intro failure after breaks
    obtain ⟨fault, first, broken⟩ := breaks
    have settles : ∀ {failed last}, Verdict codec stream failed after last →
        Settled codec stream failed last := by
      intro failed last verdict
      obtain ⟨told, log, judged, started⟩ := verdict
      exact ⟨after.log, told, log, judged, started.trans broken.started⟩
    exact (classify_ends first broken).mono (fun _ _ => settles) (fun _ _ => settles)

/-- The calls of the close, of which those of the caller's code returned unless it failed. -/
structure Closes (failed : Bool) (more : Log) : Prop where
  closing : ∀ event ∈ more, event.call.isClosing = true
  told : ∀ event ∈ more, event.call.isCallers = true → event.fault ≠ none → failed = true

namespace Closes

variable {failed : Bool} {more : Log} {event : Event}

theorem nil : Closes failed [] where
  closing := fun _ member => nomatch member
  told := fun _ member => nomatch member

theorem fail (closes : Closes failed more) : Closes true more where
  closing := closes.closing
  told := fun _ _ _ _ => rfl

theorem snoc (closes : Closes failed more) (closing : event.call.isClosing = true)
    (told : event.call.isCallers = true → event.fault ≠ none → failed = true) :
    Closes failed (more ++ [event]) where
  closing := by
    intro other member
    rcases List.mem_append.mp member with earlier | last
    · exact closes.closing other earlier
    · rwa [List.mem_singleton.mp last]
  told := by
    intro other member
    rcases List.mem_append.mp member with earlier | last
    · exact closes.told other earlier
    · rwa [List.mem_singleton.mp last]

end Closes

/-- The pipe has been closed once since the loop, if not also finalized. -/
def Closed (failed : Bool) (sink after : StreamSink κ) : Prop :=
  ∃ answer more, after.log = sink.log ++ ⟨.close, answer⟩ :: more ∧ Closes failed more ∧
    after.started = sink.started

namespace Closed

variable {failed : Bool} {sink middle after : StreamSink κ} {event : Event}

theorem fail (closed : Closed failed sink after) : Closed true sink after := by
  obtain ⟨answer, more, log, closes, started⟩ := closed
  exact ⟨answer, more, log, closes.fail, started⟩

theorem noting (closed : Closed failed sink after) (closing : event.call.isClosing = true)
    (told : event.call.isCallers = true → event.fault ≠ none → failed = true) :
    Closed failed sink (after.noting event) := by
  obtain ⟨answer, more, log, closes, started⟩ := closed
  refine ⟨answer, more ++ [event], ?_, closes.snoc closing told, started⟩
  rw [StreamSink.noting_log, log, List.append_assoc, List.cons_append]

theorem abort {answer : Option Raised} (closed : Closed failed sink middle) :
    Ends (abortStdinTransport answer) (fun _ => Closed failed sink)
      (fun _ => Closed failed sink) middle := by
  apply Ends.handle
  have aborted : ∀ answer, Closed failed sink (middle.noting ⟨.abort, answer⟩) :=
    fun answer => closed.noting rfl nofun
  apply perform_ends
  · intro _
    exact aborted none
  · intro error _
    apply Ends.branch
    · exact fun _ => Ends.returns (aborted (some error))
    · exact fun _ => Ends.raises (aborted (some error))

theorem emit {error : Raised} {observe : Option Raised}
    (closed : Closed false sink middle) :
    Ends (emitStdinError error "close" observe) (fun _ => Closed false sink)
      (fun _ => Closed true sink) middle := by
  have recorded : Closed false sink (middle.noting ⟨.stdinError "close" error.name, none⟩) :=
    closed.noting rfl nofun
  apply Ends.bind
  apply Ends.updates
  apply perform_ends
  · intro _
    exact recorded.noting rfl fun _ raised => absurd rfl raised
  · intro hooks _
    exact recorded.fail.noting rfl fun _ _ => rfl

end Closed

theorem closeStdin_ends {closing : Closing} {sink : StreamSink κ} :
    Ends (closeStdin closing) (fun _ => Closed false sink) (fun _ => Closed true sink)
      sink := by
  have handled : ∀ error after, Closed false sink after →
      Ends (if error.kind = .timeout then abortStdinTransport closing.abort
        else if error.kind = .cancelled then do
          abortStdinTransport closing.abort
          throw (.raised error)
        else if error.isOsError ∨ error.kind = .runtime then
          emitStdinError error "close" closing.observe
        else throw (.raised error) : Writer κ Unit)
        (fun _ => Closed false sink) (fun _ => Closed true sink) after := by
    intro error after closed
    have aborts : Ends (abortStdinTransport closing.abort) (fun _ => Closed false sink)
        (fun _ => Closed true sink) after :=
      closed.abort.mono (fun _ _ ended => ended) (fun _ _ ended => ended.fail)
    apply Ends.branch
    · exact fun _ => aborts
    intro _
    apply Ends.branch
    · intro _
      apply Ends.bind
      exact aborts.mono (fun _ _ ended => Ends.raises ended.fail) (fun _ _ ended => ended)
    intro _
    apply Ends.branch
    · exact fun _ => closed.emit
    · exact fun _ => Ends.raises closed.fail
  have opened : ∀ answer, Closed false sink (sink.noting ⟨.close, answer⟩) :=
    fun answer => ⟨answer, [], rfl, .nil, rfl⟩
  apply Ends.handle
  apply Ends.bind
  apply perform_ends
  · intro _
    apply perform_ends
    · intro _
      exact (opened none).noting rfl nofun
    · intro error _
      exact handled error _ ((opened none).noting rfl nofun)
  · intro error _
    exact handled error _ (opened (some error))

def Finalizer.isHook : Finalizer → Bool
  | hook .. => true
  | _ => false

/-- The calls of the finalization: the finalizer's own comes first, and only once. -/
structure Finalizes (called : Bool) (more : Log) : Prop where
  finalization : ∀ event ∈ more, event.call.isFinalization = true
  once : more.countP (fun event => event.call == .aclose) = called.toNat

def Finalized (called : Bool) (sink after : StreamSink κ) : Prop :=
  ∃ more, after.log = sink.log ++ more ∧ Finalizes called more

namespace Finalized

variable {called : Bool} {sink middle after : StreamSink κ} {event : Event}

theorem nothing (sink : StreamSink κ) : Finalized false sink sink :=
  ⟨[], (List.append_nil _).symm, fun _ member => absurd member List.not_mem_nil, rfl⟩

theorem entered (sink : StreamSink κ) (entry : Option Raised) :
    Finalized true sink (sink.noting ⟨.aclose, entry⟩) := by
  refine ⟨[⟨.aclose, entry⟩], rfl, ?_, rfl⟩
  intro event member
  rw [List.mem_singleton.mp member]
  rfl

theorem waits {call : Call} {answer : Option Raised} (finalized : Finalized called sink after)
    (waiting : call = .finalizerWait ∨ call = .finalizerReclaim) :
    Finalized called sink (after.noting ⟨call, answer⟩) := by
  obtain ⟨more, log, finalizes⟩ := finalized
  refine ⟨more ++ [⟨call, answer⟩], ?_, ?_, ?_⟩
  · rw [StreamSink.noting_log, log, List.append_assoc]
  · intro event member
    rcases List.mem_append.mp member with earlier | last
    · exact finalizes.finalization event earlier
    · rw [List.mem_singleton.mp last]
      rcases waiting with rfl | rfl <;> rfl
  · rw [List.countP_append, finalizes.once]
    rcases waiting with rfl | rfl <;> rfl

theorem perform {call : Call} {answer : Option Raised} (finalized : Finalized called sink middle)
    (waiting : call = .finalizerWait ∨ call = .finalizerReclaim) :
    Ends (perform call answer) (fun _ => Finalized called sink)
      (fun _ => Finalized called sink) middle := by
  apply perform_ends
  · exact fun _ => finalized.waits waiting
  · exact fun _ _ => finalized.waits waiting

end Finalized

theorem finalizeStdinSource_ends {finalizer : Finalizer} {sink : StreamSink κ} :
    Ends (finalizeStdinSource finalizer)
      (fun _ => Finalized (sink.started && finalizer.isHook) sink)
      (fun _ => Finalized (sink.started && finalizer.isHook) sink) sink := by
  unfold finalizeStdinSource
  apply Ends.bind
  apply Ends.reads
  cases started : sink.started with
  | false => exact Ends.returns (.nothing sink)
  | true =>
      simp only [if_true, Bool.true_and]
      cases finalizer with
      | absent => exact Ends.returns (.nothing sink)
      | unreadable error => exact Ends.raises (.nothing sink)
      | hook entry wait done reclaim =>
          have entered := Finalized.entered sink entry
          apply Ends.bind
          apply Ends.updates
          cases entry with
          | none =>
              apply Ends.bind
              apply (entered.perform (.inl rfl)).mono
              · intro _ after waited
                apply Ends.branch
                · exact fun _ => Ends.returns waited
                · exact fun _ => waited.perform (.inr rfl)
              · exact fun _ _ waited => waited
          | some error =>
              apply Ends.branch
              · exact fun _ => Ends.returns entered
              · exact fun _ => Ends.raises entered

/-- A whole run: the loop and what was said of it, then the close, then the finalization. -/
def Run (codec : Codec κ) (stream : StdinStream) (failed : Bool) (sink : StreamSink κ) : Prop :=
  ∃ body told answer closing ending,
    sink.log = body ++ told ++ ⟨.close, answer⟩ :: closing ++ ending ∧
      Judged codec stream failed body told ∧ Closes failed closing ∧
      Finalizes (stream.start.isNone && stream.finalizer.isHook) ending

theorem drainSourceIntoPipe_ends :
    Ends (drainSourceIntoPipe codec stream) (fun _ => Run codec stream false)
      (fun _ => Run codec stream true) ({} : StreamSink κ) := by
  have released : ∀ {failed sink}, Settled codec stream failed sink →
      Ends (tryFinally (closeStdin stream.closing) (finalizeStdinSource stream.finalizer))
        (fun _ => Run codec stream failed) (fun _ => Run codec stream true) sink := by
    intro failed sink settled
    obtain ⟨body, told, log, judged, started⟩ := settled
    have ends : ∀ {failed closed after}, Judged codec stream failed body told →
        Closed failed sink closed →
        Finalized (closed.started && stream.finalizer.isHook) closed after →
        Run codec stream failed after := by
      intro failed closed after judged closes finalized
      obtain ⟨answer, closing, shut, closes, same⟩ := closes
      obtain ⟨ending, last, finalizes⟩ := finalized
      rw [same, started] at finalizes
      exact ⟨body, told, answer, closing, ending, by rw [last, shut, log], judged, closes,
        finalizes⟩
    apply Ends.ensure
    apply closeStdin_ends.mono
    · intro _ middle closed
      apply finalizeStdinSource_ends.mono
      · intro _ after finalized
        cases failed with
        | false => exact ends judged closed finalized
        | true => exact ends judged closed.fail finalized
      · intro _ after finalized
        exact ends judged.fail closed.fail finalized
    · intro _ middle closed
      apply finalizeStdinSource_ends.mono
      · intro _ after finalized
        exact ends judged.fail closed finalized
      · intro _ after finalized
        exact ends judged.fail closed finalized
  apply Ends.ensure
  apply classified_ends.mono
  · intro _ sink settled
    exact released settled
  · intro _ sink settled
    exact released settled

end Cuprum.Stdin
