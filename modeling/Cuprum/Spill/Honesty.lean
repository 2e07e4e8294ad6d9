import Cuprum.Spill.Finishing

namespace Cuprum.Spill

open Cuprum.Effect Cuprum.Transition
open Cuprum.Capture (CaptureStreamName DecodeSettings)
open Cuprum.Codec (ByteOrder)

/-- What holds of a capture whatever becomes of its calls. -/
structure Kept (policy : FileBackedCapture) (settings : DecodeSettings) (byteOrder : ByteOrder)
    (session : Session) : Prop where
  absorbed : ∀ name, session.outcome ≠ .raised (.os name)
  ordered : ∀ handle ∈ session.capture.files,
    handle.file.disk <+: session.handed ∧ ∀ moment ∈ handle.file.seen, moment <+: session.handed
  total : session.capture.total = session.handed.length
  reported : ∀ final, session.outcome = .finalized final →
    Reported settings byteOrder session.handed session.capture final
  released : session.cleaned = true → ∀ number handle,
    session.capture.files[number]? = some handle → handle.file.closed = true ∧
      (¬ (session.capture.path = some number ∧ policy.keepFile = true) →
        0 < handle.file.removals)
  kept : policy.keepFile = true → ∀ number handle, session.capture.path = some number →
    session.capture.files[number]? = some handle → handle.file.removals = 0

/-- A record that tells of no failure tells of a capture that has all of the stream. -/
def Truthful (settings : DecodeSettings) (byteOrder : ByteOrder) (session : Session) : Prop :=
  ∀ final, session.outcome = .finalized final → final.capture.storageFailed = false →
    Complete settings byteOrder session.handed session.capture final

variable {policy : FileBackedCapture} {stream : CaptureStreamName} {settings : DecodeSettings}
  {byteOrder : ByteOrder} {session after : Session} {trusted : Prop}

/-- A session, with what its last operation told. -/
structure Session.Sound (policy : FileBackedCapture) (settings : DecodeSettings)
    (byteOrder : ByteOrder) (trusted : Prop) (session : Session) : Prop where
  capture : Spill.Sound policy trusted session.handed session.cancelled session.cleaned
    session.capture
  absorbed : ∀ name, session.outcome ≠ .raised (.os name)
  reported : ∀ final, session.outcome = .finalized final →
    Reported settings byteOrder session.handed session.capture final
  truthful : trusted → Truthful settings byteOrder session

/-- An operation that ends soundly leaves the session sound. -/
theorem Session.sound_after {op : Op}
    (ends : Ends (op.program policy stream settings byteOrder)
      (fun outcome capture =>
        Spill.Sound policy trusted (session.handed ++ op.chunk) session.cancelled
          (session.cleaned || op.isCleanup) capture ∧
        (∀ error, outcome ≠ .raised error) ∧
        ∀ final, outcome = .finalized final →
          Reported settings byteOrder (session.handed ++ op.chunk) capture final ∧
          (trusted → final.capture.storageFailed = false →
            Complete settings byteOrder (session.handed ++ op.chunk) capture final))
      (fun error capture => (∀ name, error ≠ .os name) ∧
        Spill.Sound policy trusted (session.handed ++ op.chunk)
          (session.cancelled || error == .cancelled) (session.cleaned || op.isCleanup) capture)
      session.capture) :
    (session.after policy stream settings byteOrder op).Sound policy settings byteOrder
      trusted := by
  unfold Session.after
  unfold Ends at ends
  cases ran : op.program policy stream settings byteOrder session.capture with
  | ok outcome capture =>
      simp only [ran] at ends ⊢
      exact {
        capture := ends.1
        absorbed := fun name => ends.2.1 _
        reported := fun final same => (ends.2.2 final same).1
        truthful := fun trust final same => (ends.2.2 final same).2 trust }
  | error error capture =>
      simp only [ran] at ends ⊢
      exact {
        capture := ends.2
        absorbed := by
          intro name same
          exact ends.1 name (Outcome.raised.inj same)
        reported := nofun
        truthful := fun _ => nofun }

theorem Session.Sound.next {op : Op} (sound : session.Sound policy settings byteOrder trusted)
    (heard : trusted → session.unheard op = false)
    (step : (system policy stream settings byteOrder).next session op = some after) :
    after.Sound policy settings byteOrder trusted := by
  obtain ⟨permitted, rfl⟩ : session.permits op = true ∧
      session.after policy stream settings byteOrder op = after := by
    simpa [system] using step
  apply Session.sound_after
  cases op with
  | absorb chunk write replies =>
      obtain ⟨running, dirty⟩ : session.cancelled = false ∧ session.cleaned = false := by
        simpa [Session.permits] using permitted
      have capture := sound.capture
      rw [running, dirty] at capture ⊢
      apply Ends.bind
      apply (absorb_ends capture ?_).mono
      · intro _ last kept
        exact Ends.returns ⟨kept, nofun, nofun⟩
      · intro error last interrupted
        obtain ⟨rfl, kept⟩ := interrupted
        exact ⟨nofun, kept⟩
      · intro trust spilled unharmed cancelled
        have told := heard trust
        simpa [Session.unheard, spilled, unharmed, cancelled] using told
  | finalize flush read =>
      simp only [Op.chunk, List.append_nil, Op.isCleanup, Bool.or_false]
      apply Ends.map
      apply (finalize_ends sound.capture).mono
      · intro final last ended
        obtain ⟨kept, reported, complete⟩ := ended
        refine ⟨kept, nofun, ?_⟩
        intro other same
        cases same
        exact ⟨reported, fun trust => complete (.inr trust)⟩
      · exact fun _ _ ended => ended
  | cleanup close unlink =>
      simp only [Op.chunk, List.append_nil, Op.isCleanup, Bool.or_true]
      apply Ends.bind
      apply (cleanup_ends sound.capture).mono
      · exact fun _ _ kept => Ends.returns ⟨kept, nofun, nofun⟩
      · exact fun _ _ wrong => wrong.elim

theorem Session.sound_initial : Session.Sound policy settings byteOrder trusted {} where
  capture := .of_memory {
    path := rfl
    file := rfl
    handle := rfl
    provisional := rfl
    buffer := rfl
    untried := fun _ => rfl
    given := fun _ member => nomatch member } rfl fun _ member => nomatch member
  absorbed := nofun
  reported := nofun
  truthful := fun _ => nofun

theorem Session.Sound.released (sound : session.Sound policy settings byteOrder trusted)
    (cleaned : session.cleaned = true) {number : Nat} {handle : SpillHandle}
    (found : session.capture.files[number]? = some handle) :
    handle.file.closed = true ∧
      (¬ (session.capture.path = some number ∧ policy.keepFile = true) →
        0 < handle.file.removals) := by
  have member := List.mem_of_getElem? found
  cases sound.capture.phase with
  | memory memory =>
      obtain ⟨closed, removed⟩ := memory.given handle member
      exact ⟨closed, fun _ => removed⟩
  | provisional spill provisional interrupted released =>
      rw [provisional.files] at member
      rw [List.mem_singleton.mp member]
      exact ⟨(released cleaned).1, fun _ => (released cleaned).2⟩
  | spilled spill spilled opened released =>
      rw [spilled.files] at member found
      rw [List.mem_singleton.mp member]
      refine ⟨(released cleaned).1, fun other => (released cleaned).2 ?_⟩
      have first : number = 0 := by
        have within := (List.getElem?_eq_some_iff.mp found).1
        exact Nat.lt_one_iff.mp within
      rw [first] at other
      exact Bool.eq_false_iff.mpr fun keep => other ⟨spilled.path, keep⟩

theorem Session.Sound.kept (sound : session.Sound policy settings byteOrder trusted) :
    Kept policy settings byteOrder session where
  absorbed := sound.absorbed
  ordered := by
    intro handle member
    have holds := sound.capture.holds handle member
    exact ⟨holds.disk, fun moment seen => (holds.seen moment seen).trans holds.disk⟩
  total := sound.capture.total
  reported := sound.reported
  released := fun cleaned _ _ found => sound.released cleaned found
  kept := by
    intro keep number handle path found
    cases sound.capture.phase with
    | memory memory => exact nomatch memory.path.symm.trans path
    | provisional spill provisional => exact nomatch provisional.path.symm.trans path
    | spilled spill spilled =>
        have member := List.mem_of_getElem? found
        rw [spilled.files] at member
        rw [List.mem_singleton.mp member]
        exact spilled.kept keep

/-- Past a failure that it knows of, a capture writes to no file. -/
theorem absorb_untouched {capture : FileAccumulator} {chunk : List UInt8} {write : Reply}
    {replies : SpillReplies} (failed : capture.failed.isSome = true) :
    Ends (absorb policy stream chunk write replies) (fun _ last => last.files = capture.files)
      (fun _ last => last.files = capture.files) capture := by
  obtain ⟨name, known⟩ := Option.isSome_iff_exists.mp failed
  unfold absorb append shouldSpill
  refine Ends.bind (Ends.updates (Ends.bind (Ends.reads ?_)))
  simp only [known]
  cases capture.path with
  | some number =>
      apply Ends.bind
      apply Ends.reads
      exact Ends.returns rfl
  | none =>
      cases capture.buffer with
      | none => exact Ends.returns rfl
      | some buffered => exact Ends.bind (Ends.updates (Ends.returns rfl))

/-- The sessions in which the failure of no append is lost to a cancellation. -/
def heard (policy : FileBackedCapture) (stream : CaptureStreamName) (settings : DecodeSettings)
    (byteOrder : ByteOrder) : System Session Op :=
  (system policy stream settings byteOrder).guarded fun session op => !session.unheard op

theorem capture_never_overclaims (policy : FileBackedCapture) (stream : CaptureStreamName)
    (settings : DecodeSettings) (byteOrder : ByteOrder) {ops : List Op} {session : Session}
    (runs : (system policy stream settings byteOrder).exec {} ops = some session) :
    Kept policy settings byteOrder session ∧
      (∀ chunk write replies after, session.capture.failed.isSome = true →
        (system policy stream settings byteOrder).next session (.absorb chunk write replies) =
          some after → after.capture.files = session.capture.files) ∧
        ((heard policy stream settings byteOrder).exec {} ops = some session →
          Truthful settings byteOrder session) := by
  refine ⟨?_, ?_, ?_⟩
  · have sound : session.Sound policy settings byteOrder False :=
      System.exec_invariant _ (fun sound step => sound.next False.elim step)
        Session.sound_initial runs
    exact sound.kept
  · intro chunk write replies after failed step
    obtain ⟨_, rfl⟩ : session.permits (.absorb chunk write replies) = true ∧
        session.after policy stream settings byteOrder (.absorb chunk write replies) = after := by
      simpa [system] using step
    have untouched : Ends (Op.program policy stream settings byteOrder
        (.absorb chunk write replies)) (fun _ last => last.files = session.capture.files)
        (fun _ last => last.files = session.capture.files) session.capture := by
      apply Ends.bind
      apply (absorb_untouched failed).mono
      · exact fun _ _ same => Ends.returns same
      · exact fun _ _ same => same
    unfold Session.after
    unfold Ends at untouched
    split at untouched <;> simp_all
  · intro told
    have sound : session.Sound policy settings byteOrder True := by
      refine System.exec_invariant _ ?_ Session.sound_initial told
      intro state op after sound step
      obtain ⟨allowed, taken⟩ := (System.guarded_next _).mp step
      exact sound.next (fun _ => by simpa using allowed) taken
    exact sound.truthful trivial

/-- Spills with the first chunk, and leaves the file to be removed. -/
def eager : FileBackedCapture where
  spillThresholdBytes := none
  keepFile := false
  positive := nofun

def byteMode : DecodeSettings where
  encoding := .codec (.utf .utf8)
  errors := Capture.replaceErrors
  captureBytes := true

/-- An append that has failed when its caller is cancelled, and a record that says nothing of
it. -/
def unheardOps : List Op :=
  [.absorb [1] {} {}, .absorb [2] { failure := some "OSError", interruption := some .after } {},
    .finalize {} {}]

theorem unheard_append_overclaims :
    ∃ session final, (system eager .stdout byteMode .little).exec {} unheardOps = some session ∧
      session.outcome = .finalized final ∧ final.capture.storageFailed = false ∧
      final.capture.totalBytes = 2 ∧ final.payload = some (.bytes [1]) ∧
      ¬ Truthful byteMode .little session := by
  refine ⟨_, _, rfl, rfl, rfl, rfl, rfl, ?_⟩
  intro truthful
  rcases truthful _ rfl rfl with ⟨path, _⟩ | ⟨number, spill, path, _, _, payload⟩
  · cases path
  · cases payload rfl

/-- A capture that spills, appends and answers in bytes. -/
theorem capture_never_overclaims_spilled :
    ∃ session final, (system eager .stdout byteMode .little).exec {}
        [.absorb [1] {} {}, .absorb [2] {} {}, .finalize {} {}] = some session ∧
      session.outcome = .finalized final ∧ final.payload = some (.bytes [1, 2]) ∧
      Kept eager byteMode .little session ∧ Complete byteMode .little [1, 2] session.capture final := by
  refine ⟨_, _, rfl, rfl, rfl, ?_⟩
  have runs : (system eager .stdout byteMode .little).exec {}
      [.absorb [1] {} {}, .absorb [2] {} {}, .finalize {} {}] = some _ := rfl
  obtain ⟨kept, _, truthful⟩ := capture_never_overclaims eager .stdout byteMode .little runs
  exact ⟨kept, truthful rfl _ rfl rfl⟩

end Cuprum.Spill
