import Cuprum.Stdin.Closing

namespace Cuprum.Stdin

open Cuprum.Effect Cuprum.Text

variable {κ : Type} {codec : Codec κ} {stream : StdinStream} {failed : Bool}

/-- What is promised of a run that streams a producer into the child's input. -/
structure Upheld (codec : Codec κ) (stream : StdinStream) (failed : Bool)
    (sink : StreamSink κ) : Prop where
  orderly : sink.log.Orderly codec stream
  closed : ∃ before answer after, sink.log = before ++ ⟨.close, answer⟩ :: after ∧
    (∀ event ∈ before, event.call.isClose = false ∧ event.call.isFinalization = false) ∧
      ∀ event ∈ after, event.call.isClose = false
  finalized : sink.log.countP (fun event => event.call == .aclose) =
    (stream.start.isNone && stream.finalizer.isHook).toNat
  early : ∀ before errorType answer after,
    sink.log = before ++ ⟨.stdinError "early_close" errorType, answer⟩ :: after →
      ∃ earlier call error, before = earlier ++ [⟨call, some error⟩] ∧ call.isOnPipe = true
  told : ∀ event ∈ sink.log, event.call.isCallers = true → event.fault ≠ none → failed = true

namespace Call

/-- Calls that belong neither to the close nor to the finalization. -/
def isBefore (call : Call) : Bool :=
  !call.isClose && !call.isFinalization

def isEarlyClose : Call → Bool
  | stdinError operation _ => operation == "early_close"
  | _ => false

variable {call : Call}

theorem of_boundary (pumps : call.boundary.isSome = true) :
    call.isBefore = true ∧ call.isEarlyClose = false := by
  cases call <;> first | exact ⟨rfl, rfl⟩ | cases pumps

theorem of_reporting (reporting : call.isReporting = true) :
    call.isBefore = true ∧ call.isEarlyClose = false ∧ call.isQuiet = true := by
  cases call <;> first | exact ⟨rfl, rfl, rfl⟩ | cases reporting

theorem of_closing (closing : call.isClosing = true) :
    call.isBefore = true ∧ call.isEarlyClose = false ∧ call.isQuiet = true := by
  cases call with
  | stdinError operation errorType =>
      rw [beq_iff_eq.mp closing]
      exact ⟨rfl, rfl, rfl⟩
  | _ => first | exact ⟨rfl, rfl, rfl⟩ | cases closing

theorem of_finalization (finalization : call.isFinalization = true) :
    call.isClose = false ∧ call.isEarlyClose = false ∧ call.isQuiet = true ∧
      call.isCallers = false := by
  cases call <;> first | exact ⟨rfl, rfl, rfl, rfl⟩ | cases finalization

theorem of_onPipe (pipe : call.isOnPipe = true) : call.isCallers = false := by
  cases call <;> first | rfl | cases pipe

theorem isBefore_iff : call.isBefore = true ↔
    call.isClose = false ∧ call.isFinalization = false := by
  simp [isBefore]

theorem ne_aclose (before : call.isBefore = true) : ¬ (call == .aclose) = true := by
  intro same
  rw [beq_iff_eq.mp same] at before
  cases before

end Call

/-- What was said of how the loop ended. -/
inductive Said (codec : Codec κ) (stream : StdinStream) (failed : Bool) : Log → Prop
  | nothing : Said codec stream failed []
  | early {fault : Fault} (answer : Option Raised) (first : stream.firstFault codec = some fault)
      (early : fault.early = true) (raises : answer ≠ none → failed = true) :
      Said codec stream failed [⟨.stdinError "early_close" fault.error.name, none⟩,
        ⟨.observe .stdinError, answer⟩]
  | reported {told : Log} (failure : failed = true)
      (reporting : ∀ event ∈ told, event.call.isReporting = true) :
      Said codec stream failed told

namespace Judged

variable {body told : Log}

/-- Only what the pipe raised itself is taken for an early close. -/
theorem onPipe (judged : Judged codec stream failed body told) (telling : stream.Telling codec)
    {fault : Fault} (first : stream.firstFault codec = some fault) (early : fault.early = true) :
    ∃ earlier call error, body = earlier ++ [⟨call, some error⟩] ∧ call.isOnPipe = true := by
  obtain ⟨earlier, call, log, boundary, _⟩ := judged.last fault first
  have told := telling fault first
  have chunk := StdinStream.firstFault_chunk codec stream first
  have class_ : fault.boundary ≠ .producer ∧ isEarlyClose fault.error = true := by
    simpa [Fault.early] using early
  refine ⟨earlier, call, fault.error, log, ?_⟩
  cases side : fault.boundary with
  | producer => exact absurd side class_.1
  | chunk => exact absurd class_.2 (by simp [chunk side])
  | encoder => exact absurd class_.2 (by simp [told (.inl side)])
  | hook => exact absurd class_.2 (by simp [told (.inr side)])
  | pipe =>
      rw [side] at boundary
      cases call with
      | write _ => rfl
      | drain => rfl
      | observe phase => cases phase <;> cases boundary
      | _ => cases boundary

theorem said (judged : Judged codec stream failed body told) :
    Said codec stream failed told := by
  cases first : stream.firstFault codec with
  | none =>
      rw [(judged.faultless first).2]
      exact .nothing
  | some fault =>
      cases early : fault.early with
      | true =>
          obtain ⟨answer, same, raises⟩ := judged.early fault first early
          rw [same]
          exact .early answer first early raises
      | false =>
          obtain ⟨failure, reporting⟩ := judged.failure fault first early
          exact .reported failure reporting

/-- A fault in the caller's code, unless it is taken for an early close, is a failure. -/
theorem fails (judged : Judged codec stream failed body told) (telling : stream.Telling codec)
    {event : Event} (member : event ∈ body) (callers : event.call.isCallers = true)
    (faulty : event.fault ≠ none) : failed = true := by
  cases first : stream.firstFault codec with
  | none => exact absurd ((judged.faultless first).1 event member) faulty
  | some fault =>
      obtain ⟨earlier, call, log, boundary, clean⟩ := judged.last fault first
      rw [log] at member
      rcases List.mem_append.mp member with before | last
      · exact absurd (clean event before) faulty
      · cases early : fault.early with
        | false => exact (judged.failure fault first early).1
        | true =>
            obtain ⟨others, taken, error, same, pipe⟩ := judged.onPipe telling first early
            obtain ⟨_, ends⟩ := List.append_inj' (log.symm.trans same) rfl
            cases List.singleton_inj.mp ends
            rw [List.mem_singleton.mp last] at callers
            exact absurd ((Call.of_onPipe pipe).symm.trans callers) Bool.false_ne_true

end Judged

namespace Said

variable {told : Log}

theorem quiet (said : Said codec stream failed told) : told.Quiet := by
  intro event member
  cases said with
  | nothing => cases member
  | early answer first early raises =>
      rcases List.mem_pair.mp member with rfl | rfl <;> rfl
  | reported failure reporting => exact (Call.of_reporting (reporting event member)).2.2

theorem before (said : Said codec stream failed told) {event : Event} (member : event ∈ told) :
    event.call.isBefore = true := by
  cases said with
  | nothing => cases member
  | early answer first early raises =>
      rcases List.mem_pair.mp member with rfl | rfl <;> rfl
  | reported failure reporting => exact (Call.of_reporting (reporting event member)).1

theorem fails (said : Said codec stream failed told) {event : Event} (member : event ∈ told)
    (callers : event.call.isCallers = true) (faulty : event.fault ≠ none) : failed = true := by
  cases said with
  | nothing => cases member
  | early answer first early raises =>
      rcases List.mem_pair.mp member with rfl | rfl
      · cases callers
      · exact raises faulty
  | reported failure reporting => exact failure

end Said

theorem run_log_quiet {body told closing ending : Log} {answer : Option Raised}
    {called : Bool} (said : Said codec stream failed told) (closes : Closes failed closing)
    (finalizes : Finalizes called ending) (orderly : body.Orderly codec stream) :
    Log.Orderly codec stream (body ++ told ++ ⟨.close, answer⟩ :: closing ++ ending) := by
  have close : Log.Quiet (⟨.close, answer⟩ :: closing) := by
    intro event member
    rcases List.mem_cons.mp member with rfl | later
    · rfl
    · exact (Call.of_closing (closes.closing event later)).2.2
  have last : ending.Quiet := fun event member =>
    (Call.of_finalization (finalizes.finalization event member)).2.2.1
  exact ((orderly.quiet said.quiet).quiet close).quiet last

/-- An early close is told of right after the loop, and only what the pipe raised last. -/
theorem early_onPipe {body told closing ending before after : Log} {answer said : Option Raised}
    {called : Bool} {errorType : String} (telling : stream.Telling codec)
    (judged : Judged codec stream failed body told) (closes : Closes failed closing)
    (finalizes : Finalizes called ending)
    (log : body ++ told ++ ⟨.close, answer⟩ :: closing ++ ending =
      before ++ ⟨.stdinError "early_close" errorType, said⟩ :: after) :
    ∃ earlier call error, before = earlier ++ [⟨call, some error⟩] ∧ call.isOnPipe = true := by
  have inside : ∀ event ∈ body, event.call.isEarlyClose = false := fun event member =>
    (Call.of_boundary (judged.pumps event member)).2
  have outside : ∀ event ∈ ⟨.close, answer⟩ :: closing ++ ending,
      event.call.isEarlyClose = false := by
    intro event member
    rcases List.mem_append.mp member with close | last
    · rcases List.mem_cons.mp close with rfl | later
      · rfl
      · exact (Call.of_closing (closes.closing event later)).2.1
    · exact (Call.of_finalization (finalizes.finalization event last)).2.1
  have nowhere : (∀ event ∈ told, event.call.isEarlyClose = false) → False := by
    intro silent
    have member : ⟨.stdinError "early_close" errorType, said⟩ ∈
        body ++ told ++ ⟨.close, answer⟩ :: closing ++ ending := by
      rw [log]
      exact List.mem_append_right _ List.mem_cons_self
    rw [List.append_assoc] at member
    rcases List.mem_append.mp member with first | last
    · rcases List.mem_append.mp first with loop | judgement
      · cases inside _ loop
      · cases silent _ judgement
    · cases outside _ last
  cases judged.said with
  | nothing => exact absurd nowhere fun no => no fun _ member => nomatch member
  | @early fault reply first early raises =>
      have rest : ∀ event ∈ (⟨.observe .stdinError, reply⟩ :: (⟨.close, answer⟩ :: closing ++
          ending) : Log), event.call.isEarlyClose = false := by
        intro event member
        rcases List.mem_cons.mp member with rfl | later
        · rfl
        · exact outside event later
      have split : body ++ ⟨.stdinError "early_close" fault.error.name, none⟩ ::
          (⟨.observe .stdinError, reply⟩ :: (⟨.close, answer⟩ :: closing ++ ending)) =
          before ++ ⟨.stdinError "early_close" errorType, said⟩ :: after := by
        rw [← log]
        simp
      have same := (List.append_cons_inj_of_notMem
        (fun member => Bool.noConfusion (inside _ member))
        (fun member => Bool.noConfusion (rest _ member))).mp split
      rw [← same.1]
      exact judged.onPipe telling first early
  | reported failure reporting =>
      exact absurd nowhere fun no => no fun event member =>
        (Call.of_reporting (reporting event member)).2.1

theorem Run.upheld {sink : StreamSink κ} (run : Run codec stream failed sink)
    (telling : stream.Telling codec) : Upheld codec stream failed sink := by
  obtain ⟨body, told, answer, closing, ending, log, judged, closes, finalizes⟩ := run
  have said := judged.said
  have before : ∀ event ∈ body ++ told, event.call.isBefore = true := by
    intro event member
    rcases List.mem_append.mp member with inside | after
    · exact (Call.of_boundary (judged.pumps event inside)).1
    · exact said.before after
  have shut : ∀ event ∈ closing, event.call.isBefore = true := fun event member =>
    (Call.of_closing (closes.closing event member)).1
  constructor
  · rw [log]
    exact run_log_quiet said closes finalizes judged.orderly
  · refine ⟨body ++ told, answer, closing ++ ending, ?_, ?_, ?_⟩
    · rw [log, List.append_assoc (body ++ told), List.cons_append]
    · exact fun event member => Call.isBefore_iff.mp (before event member)
    · intro event member
      rcases List.mem_append.mp member with inside | after
      · exact (Call.isBefore_iff.mp (shut event inside)).1
      · exact (Call.of_finalization (finalizes.finalization event after)).1
  · have none : (body ++ told).countP (fun event => event.call == .aclose) = 0 :=
      List.countP_eq_zero.mpr fun event member => Call.ne_aclose (before event member)
    have still : closing.countP (fun event => event.call == .aclose) = 0 :=
      List.countP_eq_zero.mpr fun event member => Call.ne_aclose (shut event member)
    rw [log, List.countP_append, List.countP_append, none, finalizes.once,
      List.countP_cons_of_neg (by simp), still, Nat.zero_add]
  · intro earlier errorType reply after split
    exact early_onPipe telling judged closes finalizes (log.symm.trans split)
  · intro event member callers faulty
    rw [log] at member
    rcases List.mem_append.mp member with earlier | last
    · rcases List.mem_append.mp earlier with said_ | close
      · rcases List.mem_append.mp said_ with inside | after
        · exact judged.fails telling inside callers faulty
        · exact said.fails after callers faulty
      · rcases List.mem_cons.mp close with rfl | later
        · cases callers
        · exact closes.told event later callers faulty
    · have others := (Call.of_finalization (finalizes.finalization event last)).2.2.2
      exact nomatch others.symm.trans callers

/-- An encoder or a hook that raises as the pipe would passes for the child. -/
theorem Run.telling {sink : StreamSink κ} (run : Run codec stream failed sink)
    (upheld : Upheld codec stream failed sink) : stream.Telling codec := by
  obtain ⟨body, told, answer, closing, ending, log, judged, closes, finalizes⟩ := run
  intro fault first side
  by_contra passes
  have early : fault.early = true := by
    rcases side with encoder | hook
    · simpa [Fault.early, encoder] using passes
    · simpa [Fault.early, hook] using passes
  obtain ⟨earlier, call, last, boundary, clean⟩ := judged.last fault first
  obtain ⟨reply, said, raises⟩ := judged.early fault first early
  obtain ⟨others, taken, error, same, pipe⟩ := upheld.early body fault.error.name none
    (⟨.observe .stdinError, reply⟩ :: (⟨.close, answer⟩ :: closing ++ ending)) (by
      rw [log, said]
      simp)
  obtain ⟨_, ends⟩ := List.append_inj' (last.symm.trans same) rfl
  cases List.singleton_inj.mp ends
  have callers : call.isCallers = true := by
    rcases side with encoder | hook
    · rw [encoder] at boundary
      cases call <;> first | rfl | cases boundary
    · rw [hook] at boundary
      cases call <;> first | rfl | cases boundary
  exact absurd ((Call.of_onPipe pipe).symm.trans callers) Bool.false_ne_true

/-- The bytes the pipe is handed are the first of those the chunks are encoded to, a pull
finds nothing undrained, and the pipe is closed once, before the producer is finalized.
That a failure is told for what it is takes more: an encoder or a hook that raises what a
child that closes its input would is taken for that child. -/
theorem streaming_upheld_iff (codec : Codec κ) (stream : StdinStream) :
    Ends (writeStdinStream codec stream true) (fun _ => Upheld codec stream false)
      (fun _ => Upheld codec stream true) {} ↔ stream.Telling codec := by
  have run : Ends (writeStdinStream codec stream true) (fun _ => Run codec stream false)
      (fun _ => Run codec stream true) {} := drainSourceIntoPipe_ends
  constructor
  · intro upheld
    apply of_ends
    apply (run.both upheld).mono
    · exact fun _ _ ended => ended.1.telling ended.2
    · exact fun _ _ ended => ended.1.telling ended.2
  · intro telling
    apply run.mono
    · exact fun _ _ ended => ended.upheld telling
    · exact fun _ _ ended => ended.upheld telling

/-- ASCII, each character one byte. -/
def ascii : Codec Unit where
  build := .ok ()
  encode _ text _ := .ok (text.map fun character => UInt8.ofNat character, ())

def brokenPipe : Raised where
  kind := .brokenPipe
  name := "BrokenPipeError"
  text := "[Errno 32] Broken pipe"
  errno := some epipe

/-- A hook that forwards the first event to a socket of its own, whose reader has gone; a
second chunk is left. -/
def forwarded : StdinStream where
  chunks := [(.text [.ofChar 'a'], { observe := some brokenPipe }), (.text [.ofChar 'b'], {})]

/-- Its run returns, with half of the input written and a child said to have closed it. -/
def forwardedLog : Log :=
  [⟨.aiter, none⟩, ⟨.anext (some (.text [.ofChar 'a'])), none⟩, ⟨.buildEncoder, none⟩, ⟨.encode, none⟩,
    ⟨.write [97], none⟩, ⟨.drain, none⟩, ⟨.observe .stdin, some brokenPipe⟩,
    ⟨.stdinError "early_close" "BrokenPipeError", none⟩, ⟨.observe .stdinError, none⟩,
    ⟨.close, none⟩, ⟨.waitClosed, none⟩]

theorem forwarded_run : writeStdinStream ascii forwarded true {} =
    .ok () { encoder := some (), started := true, log := forwardedLog } :=
  rfl

theorem hook_taken_for_child :
    writeStdinStream ascii forwarded true {} =
        .ok () { encoder := some (), started := true, log := forwardedLog } ∧
      ¬ Ends (writeStdinStream ascii forwarded true) (fun _ => Upheld ascii forwarded false)
        (fun _ => Upheld ascii forwarded true) {} := by
  refine ⟨forwarded_run, fun ends => ?_⟩
  unfold Ends at ends
  rw [forwarded_run] at ends
  have failure := ends.told ⟨.observe .stdin, some brokenPipe⟩ (by decide) rfl nofun
  cases failure

end Cuprum.Stdin
