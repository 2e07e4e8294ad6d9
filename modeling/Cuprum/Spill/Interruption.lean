import Cuprum.Spill.Finishing

namespace Cuprum.Spill

open Cuprum.Effect
open Cuprum.Capture (CaptureStreamName DecodeSettings Payload render)
open Cuprum.Codec (ByteOrder)

/-! A capture that is interrupted, beside one that is interrupted less. -/

/-- A call with the first of two interruptions is cut short wherever one with the second is. -/
inductive Interruption.Exceeds : Option Interruption → Option Interruption → Prop
  | same (interruption : Option Interruption) : Exceeds interruption interruption
  | certain (interruption : Option Interruption) : Exceeds (some .after) interruption
  | never (interruption : Option Interruption) : Exceeds interruption none

/-- The same answer with less of an interruption; quiet if with none. -/
structure Reply.Exceeds (quiet : Prop) (reply other : Reply) : Prop where
  answer : reply.toAnswer = other.toAnswer
  interruption : Interruption.Exceeds reply.interruption other.interruption
  quiet : quiet → other.interruption = none

structure SpillReplies.Exceeds (quiet : Prop) (replies others : SpillReplies) : Prop where
  create : replies.create.Exceeds quiet others.create
  write : replies.write.Exceeds quiet others.write
  flush : replies.flush.Exceeds quiet others.flush
  discardClose : replies.discardClose.Exceeds quiet others.discardClose
  discardUnlink : replies.discardUnlink.Exceeds quiet others.discardUnlink

/-- The same answer, with no cancellation beside it. -/
def Reply.uninterrupted (reply : Reply) : Reply :=
  { reply with interruption := none }

/-- The same answer, and a cancellation that no failure displaces. -/
def Reply.heeded (reply : Reply) : Reply :=
  { reply with interruption := reply.interruption.map fun _ => .after }

def SpillReplies.map (replies : SpillReplies) (change : Reply → Reply) : SpillReplies where
  create := change replies.create
  write := change replies.write
  flush := change replies.flush
  discardClose := change replies.discardClose
  discardUnlink := change replies.discardUnlink

theorem Reply.exceeds_uninterrupted (reply : Reply) : reply.Exceeds True reply.uninterrupted :=
  ⟨rfl, .never _, fun _ => rfl⟩

theorem Reply.heeded_exceeds (reply : Reply) : reply.heeded.Exceeds False reply := by
  refine ⟨rfl, ?_, False.elim⟩
  change Interruption.Exceeds (reply.interruption.map fun _ => .after) reply.interruption
  cases reply.interruption with
  | none => exact .same none
  | some arrival => exact .certain _

theorem SpillReplies.exceeds_uninterrupted (replies : SpillReplies) :
    replies.Exceeds True (replies.map Reply.uninterrupted) :=
  ⟨replies.create.exceeds_uninterrupted, replies.write.exceeds_uninterrupted,
    replies.flush.exceeds_uninterrupted, replies.discardClose.exceeds_uninterrupted,
    replies.discardUnlink.exceeds_uninterrupted⟩

theorem SpillReplies.heeded_exceeds (replies : SpillReplies) :
    (replies.map Reply.heeded).Exceeds False replies :=
  ⟨replies.create.heeded_exceeds, replies.write.heeded_exceeds, replies.flush.heeded_exceeds,
    replies.discardClose.heeded_exceeds, replies.discardUnlink.heeded_exceeds⟩

variable {α β : Type} {quiet : Prop}

def Uncancelled (program : Capture α) : Prop :=
  ∀ capture after, program capture ≠ .error .cancelled after

/-- The first computation is the second one, unless it is cut short by a cancellation; a
quiet second one never is. -/
structure Interrupts (quiet : Prop) (program other : Capture α) : Prop where
  same : ∀ capture, program capture = other capture ∨
    ∃ after, program capture = .error .cancelled after
  uncancelled : quiet → Uncancelled other

namespace Interrupts

theorem refl {program : Capture α} (uncancelled : Uncancelled program) :
    Interrupts quiet program program :=
  ⟨fun _ => .inl rfl, fun _ => uncancelled⟩

theorem returns (value : α) : Interrupts quiet (pure value) (pure value) :=
  refl fun _ _ => nofun

theorem updates (update : FileAccumulator → FileAccumulator) :
    Interrupts quiet (modify update) (modify update) :=
  refl fun _ _ => nofun

theorem reads : Interrupts quiet get get :=
  refl fun _ _ => nofun

theorem bind {program other : Capture α} {next later : α → Capture β}
    (first : Interrupts quiet program other)
    (second : ∀ value, Interrupts quiet (next value) (later value)) :
    Interrupts quiet (program >>= next) (other >>= later) where
  same capture := by
    rw [run_bind, run_bind]
    rcases first.same capture with equal | ⟨after, cut⟩
    · rw [equal]
      cases other capture with
      | ok value middle => exact (second value).same middle
      | error error middle => exact .inl rfl
    · rw [cut]
      exact .inr ⟨after, rfl⟩
  uncancelled still capture after := by
    rw [run_bind]
    cases ran : other capture with
    | ok value middle => exact (second value).uncancelled still middle after
    | error error middle =>
        intro cut
        cases cut
        exact first.uncancelled still capture after ran

theorem map {program other : Capture α} (apply : α → β)
    (body : Interrupts quiet program other) :
    Interrupts quiet (apply <$> program) (apply <$> other) where
  same capture := by
    rcases body.same capture with equal | ⟨after, cut⟩
    · left
      simp only [Functor.map, EStateM.map, equal]
    · right
      exact ⟨after, by simp only [Functor.map, EStateM.map, cut]⟩
  uncancelled still capture after := by
    simp only [Functor.map, EStateM.map]
    cases ran : other capture with
    | ok value middle => exact nofun
    | error error middle =>
        intro cut
        cases cut
        exact body.uncancelled still capture after ran

theorem branch {condition : Prop} [Decidable condition] {first second third fourth : Capture α}
    (holds : Interrupts quiet first third) (fails : Interrupts quiet second fourth) :
    Interrupts quiet (if condition then first else second)
      (if condition then third else fourth) := by
  split
  · exact holds
  · exact fails

theorem exceptOsError {program other : Capture α} {handler counter : String → Capture α}
    (body : Interrupts quiet program other)
    (handled : ∀ name, Interrupts quiet (handler name) (counter name)) :
    Interrupts quiet (Spill.exceptOsError program handler)
      (Spill.exceptOsError other counter) where
  same capture := by
    unfold Spill.exceptOsError
    rw [run_tryCatch, run_tryCatch]
    rcases body.same capture with equal | ⟨after, cut⟩
    · rw [equal]
      cases other capture with
      | ok value middle => exact .inl rfl
      | error error middle =>
          cases error with
          | os name => exact (handled name).same middle
          | cancelled | closedFile | undecodable => exact .inl rfl
    · rw [cut]
      exact .inr ⟨after, rfl⟩
  uncancelled still capture after := by
    unfold Spill.exceptOsError
    rw [run_tryCatch]
    cases ran : other capture with
    | ok value middle => exact nofun
    | error error middle =>
        cases error with
        | os name => exact (handled name).uncancelled still middle after
        | cancelled => exact absurd ran (body.uncancelled still capture middle)
        | closedFile | undecodable => exact nofun

theorem run {call : Capture α} {interruption other : Option Interruption}
    (exceeds : Interruption.Exceeds interruption other) (still : quiet → other = none)
    (uncancelled : Uncancelled call) :
    Interrupts quiet (Spill.run interruption call) (Spill.run other call) where
  same capture := by
    cases exceeds with
    | same => exact .inl rfl
    | certain => exact .inr ⟨left call capture, rfl⟩
    | never =>
        match interruption with
        | none => exact .inl rfl
        | some .after => exact .inr ⟨left call capture, rfl⟩
        | some .during =>
            rw [run_during]
            change _ = call capture ∨ _
            cases call capture with
            | ok value after => exact .inr ⟨after, rfl⟩
            | error error after => exact .inl rfl
  uncancelled calm := by
    rw [still calm]
    exact uncancelled

end Interrupts

theorem uncancelled_attempt (failure : Option String) :
    Uncancelled (attempt (failure.map .os)) := by
  cases failure with
  | none => exact fun _ _ => nofun
  | some name => exact fun _ _ => nofun

theorem uncancelled_blocking (number : Nat) (answer : Answer) (update : SpillFile → SpillFile) :
    Uncancelled (blocking number answer update) :=
  have calm : Interrupts True (blocking number answer update) (blocking number answer update) :=
    .bind (.updates _) fun _ => .refl (uncancelled_attempt answer.failure)
  calm.uncancelled trivial

theorem uncancelled_whileOpen (number : Nat) {call : Capture Unit}
    (uncancelled : Uncancelled call) : Uncancelled (whileOpen number call) := by
  intro capture after
  rw [whileOpen_apply]
  cases capture.files[number]? with
  | none => exact uncancelled capture after
  | some handle =>
      cases shut : handle.file.closed with
      | true =>
          simp only [shut, if_true]
          exact nofun
      | false =>
          simp only [shut, Bool.false_eq_true, if_false]
          exact uncancelled capture after

section

variable {reply other : Reply}

theorem interrupts_fileWrite (number : Nat) (data : List UInt8)
    (exceeds : reply.Exceeds quiet other) :
    Interrupts quiet (fileWrite number data reply) (fileWrite number data other) := by
  unfold fileWrite
  rw [exceeds.answer]
  exact .run exceeds.interruption exceeds.quiet
    (uncancelled_whileOpen number (uncancelled_blocking _ _ _))

theorem interrupts_fileFlush (number : Nat) (exceeds : reply.Exceeds quiet other) :
    Interrupts quiet (fileFlush number reply) (fileFlush number other) := by
  unfold fileFlush
  rw [exceeds.answer]
  exact .run exceeds.interruption exceeds.quiet
    (uncancelled_whileOpen number (uncancelled_blocking _ _ _))

theorem Reply.Exceeds.cancelled (exceeds : reply.Exceeds quiet other) :
    reply.cancelled = other.cancelled ∨ reply.cancelled = true := by
  have failure : reply.failure = other.failure := congrArg Answer.failure exceeds.answer
  have interruption := exceeds.interruption
  unfold Reply.cancelled
  rw [failure]
  generalize reply.interruption = first at interruption
  generalize other.interruption = second at interruption
  cases interruption with
  | same => exact .inl rfl
  | certain => exact .inr rfl
  | never =>
      match first with
      | none => exact .inl rfl
      | some .after => exact .inr rfl
      | some .during => cases other.failure <;> simp

theorem Reply.Exceeds.still (exceeds : reply.Exceeds quiet other) (calm : quiet) :
    other.cancelled = false := by
  rw [Reply.cancelled, exceeds.quiet calm]

theorem interrupts_cut {program : Capture α} (exceeds : reply.Exceeds quiet other)
    (uncancelled : Uncancelled program) :
    Interrupts quiet (if reply.cancelled then throw .cancelled else program)
      (if other.cancelled then throw .cancelled else program) where
  same capture := by
    rcases exceeds.cancelled with same | cut
    · rw [same]
      exact .inl rfl
    · rw [cut, if_pos rfl]
      exact .inr ⟨capture, rfl⟩
  uncancelled calm := by
    rw [exceeds.still calm]
    exact uncancelled

theorem interrupts_create (exceeds : reply.Exceeds quiet other) :
    Interrupts quiet (createPublishedSpill reply) (createPublishedSpill other) := by
  unfold createPublishedSpill
  rw [show reply.failure = other.failure from congrArg Answer.failure exceeds.answer]
  cases other.failure with
  | some name => exact interrupts_cut exceeds fun _ _ => nofun
  | none =>
      exact .bind .reads fun capture => .bind (.updates _) fun _ => .bind (.updates _) fun _ =>
        interrupts_cut exceeds fun _ _ => nofun

theorem interrupts_close (number : Nat) (exceeds : reply.Exceeds quiet other) :
    Interrupts quiet
      (exceptOsError (run reply.interruption (fileClose number reply.toAnswer)) fun _ => pure ())
      (exceptOsError (run other.interruption (fileClose number other.toAnswer))
        fun _ => pure ()) := by
  rw [exceeds.answer]
  exact .exceptOsError (.run exceeds.interruption exceeds.quiet (uncancelled_blocking _ _ _))
    fun _ => .returns ()

theorem interrupts_unlink (number : Nat) (exceeds : reply.Exceeds quiet other) :
    Interrupts quiet
      (exceptOsError (run reply.interruption (pathUnlink number reply.toAnswer)) fun _ => pure ())
      (exceptOsError (run other.interruption (pathUnlink number other.toAnswer))
        fun _ => pure ()) := by
  rw [exceeds.answer]
  exact .exceptOsError (.run exceeds.interruption exceeds.quiet (uncancelled_blocking _ _ _))
    fun _ => .returns ()

variable (policy : FileBackedCapture) (stream : CaptureStreamName)
  {replies others : SpillReplies}

theorem interrupts_failStorage (name : String) (category : CaptureEventCategory) :
    Interrupts quiet (failStorage stream name category) (failStorage stream name category) :=
  .bind (.updates _) fun _ => .bind .reads fun _ => .updates _

theorem interrupts_discard (number : Nat) (name : String)
    (exceeds : replies.Exceeds quiet others) :
    Interrupts quiet (discardFailedSpill stream number name replies)
      (discardFailedSpill stream number name others) :=
  .bind (interrupts_close number exceeds.discardClose) fun _ =>
    .bind (interrupts_unlink number exceeds.discardUnlink) fun _ =>
      .bind (.updates _) fun _ => .bind (.updates _) fun _ =>
        interrupts_failStorage stream name .storageWriteFailed

theorem interrupts_promote :
    Interrupts quiet (promoteProvisionalSpill policy) (promoteProvisionalSpill policy) := by
  refine .bind .reads fun capture => ?_
  cases capture.provisional with
  | none => exact .returns ()
  | some number => exact .bind (.updates _) fun _ => .updates _

theorem interrupts_adoptPrefix (number : Nat) (buffered : List UInt8) :
    Interrupts quiet (adoptPrefix policy stream number buffered)
      (adoptPrefix policy stream number buffered) :=
  .bind (.updates _) fun _ => .bind (interrupts_promote policy) fun _ =>
    .bind (.updates _) fun _ => .updates _

theorem interrupts_spill (exceeds : replies.Exceeds quiet others) :
    Interrupts quiet (spill policy stream replies) (spill policy stream others) := by
  refine .bind .reads fun capture => ?_
  cases capture.buffer with
  | none => exact .returns ()
  | some buffered =>
      refine .bind (.exceptOsError ?_ fun name => ?_) fun created => ?_
      · exact .map some (interrupts_create exceeds.create)
      · exact .bind (interrupts_failStorage stream name _) fun _ => .returns none
      · cases created with
        | none => exact .returns ()
        | some number =>
            refine .bind (.exceptOsError ?_ fun name => ?_) fun written => ?_
            · exact .bind (interrupts_fileWrite number buffered exceeds.write) fun _ =>
                .bind (interrupts_fileFlush number exceeds.flush) fun _ => .returns true
            · exact .bind (interrupts_discard stream number name exceeds) fun _ =>
                .returns false
            · exact .branch (interrupts_adoptPrefix policy stream number buffered) (.returns ())

theorem interrupts_append (chunk : List UInt8) (exceeds : reply.Exceeds quiet other) :
    Interrupts quiet (append stream chunk reply) (append stream chunk other) := by
  refine .bind .reads fun capture => ?_
  cases capture.failed with
  | some name => exact .returns ()
  | none =>
      cases capture.file with
      | none => exact .returns ()
      | some number =>
          refine .bind (.exceptOsError ?_ fun name => ?_) fun written => ?_
          · exact .bind (interrupts_fileWrite number chunk exceeds) fun _ => .returns true
          · exact .bind (interrupts_failStorage stream name _) fun _ => .returns false
          · exact .branch (.updates _) (.returns ())

theorem interrupts_absorb (chunk : List UInt8) (write : reply.Exceeds quiet other)
    (exceeds : replies.Exceeds quiet others) :
    Interrupts quiet (absorb policy stream chunk reply replies)
      (absorb policy stream chunk other others) := by
  refine .bind (.updates _) fun _ => .bind .reads fun capture => ?_
  cases capture.path with
  | some number => exact interrupts_append stream chunk write
  | none =>
      cases capture.buffer with
      | none => exact .returns ()
      | some buffered =>
          exact .bind (.updates _) fun _ =>
            .branch (interrupts_spill policy stream exceeds) (.returns ())

end

/-! An absorb that is cut short while it spills leaves the stream in memory. -/

def KeepsMemory (program : Capture α) : Prop :=
  ∀ capture, capture.path = none → (left program capture).path = none

def CutInMemory (program : Capture α) : Prop :=
  ∀ capture, capture.path = none → ∀ error after, program capture = .error error after →
    after.path = none

namespace KeepsMemory

theorem updates {update : FileAccumulator → FileAccumulator}
    (same : ∀ capture, (update capture).path = capture.path) : KeepsMemory (modify update) :=
  fun capture none => (same capture).trans none

theorem bind {program : Capture α} {next : α → Capture β} (first : KeepsMemory program)
    (second : ∀ value, KeepsMemory (next value)) : KeepsMemory (program >>= next) := by
  intro capture none
  have kept := first capture none
  unfold left at kept ⊢
  rw [run_bind]
  cases ran : program capture with
  | ok value middle =>
      rw [ran] at kept
      exact second value middle kept
  | error error middle =>
      rw [ran] at kept
      exact kept

theorem exceptOsError {program : Capture α} {handler : String → Capture α}
    (body : KeepsMemory program) (handled : ∀ name, KeepsMemory (handler name)) :
    KeepsMemory (Spill.exceptOsError program handler) := by
  intro capture none
  have kept := body capture none
  unfold left at kept ⊢
  unfold Spill.exceptOsError
  rw [run_tryCatch]
  cases ran : program capture with
  | ok value middle =>
      rw [ran] at kept
      exact kept
  | error error middle =>
      rw [ran] at kept
      cases error with
      | os name => exact handled name middle kept
      | cancelled | closedFile | undecodable => exact kept

theorem returns (value : α) : KeepsMemory (pure value) :=
  fun _ none => none

theorem run {call : Capture α} (interruption : Option Interruption)
    (keeps : KeepsMemory call) : KeepsMemory (Spill.run interruption call) := by
  intro capture none
  rw [left_run]
  exact keeps capture none

theorem blocking (number : Nat) (answer : Answer) (update : SpillFile → SpillFile) :
    KeepsMemory (Spill.blocking number answer update) := by
  intro capture none
  unfold Spill.blocking left
  cases answer.failure with
  | none => exact none
  | some name => exact none

theorem whileOpen (number : Nat) {call : Capture Unit} (keeps : KeepsMemory call) :
    KeepsMemory (Spill.whileOpen number call) := by
  intro capture none
  unfold left
  rw [whileOpen_apply]
  cases capture.files[number]? with
  | none => exact keeps capture none
  | some handle =>
      cases shut : handle.file.closed with
      | true =>
          simp only [shut, if_true]
          exact none
      | false =>
          simp only [shut, Bool.false_eq_true, if_false]
          exact keeps capture none

theorem failStorage (stream : CaptureStreamName) (name : String)
    (category : CaptureEventCategory) : KeepsMemory (Spill.failStorage stream name category) :=
  fun _ none => none

theorem create (reply : Reply) : KeepsMemory (createPublishedSpill reply) := by
  intro capture none
  unfold createPublishedSpill left
  cases reply.failure with
  | some name => cases reply.cancelled <;> exact none
  | none => cases reply.cancelled <;> exact none

theorem map {program : Capture α} (apply : α → β) (body : KeepsMemory program) :
    KeepsMemory (apply <$> program) := by
  intro capture none
  have kept := body capture none
  unfold left at kept ⊢
  simp only [Functor.map, EStateM.map]
  cases ran : program capture with
  | ok value middle =>
      rw [ran] at kept
      exact kept
  | error error middle =>
      rw [ran] at kept
      exact kept

theorem discard (stream : CaptureStreamName) (number : Nat) (name : String)
    (replies : SpillReplies) :
    KeepsMemory (discardFailedSpill stream number name replies) :=
  .bind (.exceptOsError (.run _ (.blocking _ _ _)) fun _ => .returns ()) fun _ =>
    .bind (.exceptOsError (.run _ (.blocking _ _ _)) fun _ => .returns ()) fun _ =>
      .bind (.updates fun capture => by split <;> rfl) fun _ =>
        .bind (.updates fun _ => rfl) fun _ => .failStorage stream name .storageWriteFailed

end KeepsMemory

namespace CutInMemory

theorem of_keeps {program : Capture α} (keeps : KeepsMemory program) :
    CutInMemory program := by
  intro capture none error after cut
  have kept := keeps capture none
  unfold left at kept
  rw [cut] at kept
  exact kept

theorem bind {program : Capture α} {next : α → Capture β} (first : KeepsMemory program)
    (second : ∀ value, CutInMemory (next value)) : CutInMemory (program >>= next) := by
  intro capture none error after cut
  have kept := first capture none
  unfold left at kept
  rw [run_bind] at cut
  cases ran : program capture with
  | ok value middle =>
      rw [ran] at kept cut
      exact second value middle kept error after cut
  | error worse middle =>
      rw [ran] at kept cut
      cases cut
      exact kept

theorem adoptPrefix (policy : FileBackedCapture) (stream : CaptureStreamName) (number : Nat)
    (buffered : List UInt8) : CutInMemory (Spill.adoptPrefix policy stream number buffered) := by
  intro capture _ error after cut
  have returns : Ends (Spill.adoptPrefix policy stream number buffered) (fun _ _ => True)
      (fun _ _ => False) capture := by
    refine .bind (.updates (.bind (.bind (.reads ?_))))
    cases capture.provisional with
    | none => exact .returns (.bind (.updates (.updates trivial)))
    | some held => exact .bind (.updates (.updates (.bind (.updates (.updates trivial)))))
  unfold Ends at returns
  rw [cut] at returns
  exact returns.elim

theorem spill (policy : FileBackedCapture) (stream : CaptureStreamName)
    (replies : SpillReplies) : CutInMemory (Spill.spill policy stream replies) := by
  refine .bind (fun _ none => none) fun capture => ?_
  cases capture.buffer with
  | none => exact .of_keeps (.returns ())
  | some buffered =>
      refine .bind (.exceptOsError (.map some (.create replies.create)) fun name =>
        .bind (.failStorage stream name _) fun _ => .returns none) fun created => ?_
      cases created with
      | none => exact .of_keeps (.returns ())
      | some number =>
          refine .bind (.exceptOsError ?_ fun name => ?_) fun written => ?_
          · exact .bind (.run _ (.whileOpen number (.blocking _ _ _))) fun _ =>
              .bind (.run _ (.whileOpen number (.blocking _ _ _))) fun _ => .returns true
          · exact .bind (.discard stream number name replies) fun _ => .returns false
          · cases written with
            | true => exact adoptPrefix policy stream number buffered
            | false => exact .of_keeps (.returns ())

theorem append (stream : CaptureStreamName) (chunk : List UInt8) (reply : Reply) :
    KeepsMemory (Spill.append stream chunk reply) := by
  refine .bind (fun _ none => none) fun capture => ?_
  cases capture.failed with
  | some name => exact .returns ()
  | none =>
      cases capture.file with
      | none => exact .returns ()
      | some number =>
          refine .bind (.exceptOsError ?_ fun name => ?_) fun written => ?_
          · exact .bind (.run _ (.whileOpen number (.blocking _ _ _))) fun _ => .returns true
          · exact .bind (.failStorage stream name _) fun _ => .returns false
          · cases written with
            | true => exact .updates fun _ => rfl
            | false => exact .returns ()

theorem absorb (policy : FileBackedCapture) (stream : CaptureStreamName) (chunk : List UInt8)
    (write : Reply) (replies : SpillReplies) :
    CutInMemory (Spill.absorb policy stream chunk write replies) := by
  refine .bind (.updates fun _ => rfl) fun _ => .bind (fun _ none => none) fun capture => ?_
  cases capture.path with
  | some number => exact .of_keeps (append stream chunk write)
  | none =>
      cases capture.buffer with
      | none => exact .of_keeps (.returns ())
      | some buffered =>
          refine .bind (.updates fun _ => rfl) fun _ => ?_
          split
          · exact spill policy stream replies
          · exact .of_keeps (.returns ())

end CutInMemory

variable {policy : FileBackedCapture} {stream : CaptureStreamName} {settings : DecodeSettings}
  {byteOrder : ByteOrder} {capture : FileAccumulator} {handed : List UInt8}
  {spill : SpillHandle}

/-- The uninterrupted absorb returns. -/
theorem absorb_uninterrupted (sound : Sound policy False handed false false capture)
    (chunk : List UInt8) (write : Reply) (replies : SpillReplies) :
    ∃ after, absorb policy stream chunk write.uninterrupted (replies.map .uninterrupted) capture =
        .ok () after ∧ Sound policy False (handed ++ chunk) false false after := by
  have ends : Ends (absorb policy stream chunk write.uninterrupted
      (replies.map .uninterrupted)) _ _
    capture := absorb_ends sound fun trusted => trusted.elim
  have uncancelled := (interrupts_absorb policy stream chunk write.exceeds_uninterrupted
    replies.exceeds_uninterrupted).uncancelled trivial capture
  unfold Ends at ends
  cases ran : absorb policy stream chunk write.uninterrupted (replies.map .uninterrupted) capture with
  | ok value after =>
      rw [ran] at ends
      exact ⟨after, rfl, ends⟩
  | error error after =>
      rw [ran] at ends
      cases ends.1
      exact absurd ran (uncancelled after)

/-- What cuts an absorb short is delivered to it. -/
theorem absorb_heeded {chunk : List UInt8} {write : Reply} {replies : SpillReplies}
    {after : FileAccumulator}
    (cut : absorb policy stream chunk write replies capture = .error .cancelled after) :
    ∃ other, absorb policy stream chunk write.heeded (replies.map .heeded) capture =
      .error .cancelled other := by
  rcases (interrupts_absorb policy stream chunk write.heeded_exceeds
    replies.heeded_exceeds).same capture with same | cut
  · exact ⟨after, same.trans cut⟩
  · exact cut

theorem absorb_cut_in_memory {chunk : List UInt8} {write : Reply} {replies : SpillReplies}
    {error : Raised} {after : FileAccumulator}
    (sound : Sound policy False handed false false capture) (path : capture.path = none)
    (cut : absorb policy stream chunk write replies capture = .error error after) :
    error = .cancelled ∧ after.path = none ∧ after.buffer = some (handed ++ chunk) ∧
      after.total = (handed ++ chunk).length := by
  have ends : Ends (absorb policy stream chunk write replies) _ _ capture :=
    absorb_ends sound fun trusted => trusted.elim
  have still := CutInMemory.absorb policy stream chunk write replies capture path error after cut
  unfold Ends at ends
  rw [cut] at ends
  refine ⟨ends.1, still, ?_, ends.2.total⟩
  cases ends.2.phase with
  | memory memory => exact memory.buffer
  | provisional spill provisional => exact provisional.buffer
  | spilled spill spilled => exact nomatch spilled.path.symm.trans still

/-! An append that is cut short has made its write. -/

theorem append_cut_ends {chunk : List UInt8} {reply : Reply}
    (spilled : Spilled policy capture spill) (opened : spill.file.closed = false) :
    Ends (append stream chunk reply) (fun _ _ => True)
      (fun error after => error = .cancelled ∧ capture.failed = none ∧
        reply.cancelled = true ∧ after = capture.onFile 0 (·.write chunk reply.toAnswer))
      capture := by
  refine .bind (.reads ?_)
  cases failed : capture.failed with
  | some name => exact .returns trivial
  | none =>
      simp only [spilled.file]
      refine .bind (exceptOsError_ends (.bind (open_ends spilled.found opened
        (blocking_ends ?_ ?_ ?_))))
      · intro _ _
        exact .returns (.branch (fun _ => .updates trivial) fun _ => .returns trivial)
      · intro name _ _
        refine ⟨fun _ _ => ?_, fun other => absurd rfl (other name)⟩
        refine .bind (failStorage_ends fun events => .returns ?_)
        exact .branch (fun _ => .updates trivial) fun _ => .returns trivial
      · exact fun interrupted => ⟨nofun, fun _ => ⟨rfl, trivial, interrupted, rfl⟩⟩

theorem append_uninterrupted {chunk : List UInt8} {reply : Reply} {raised}
    (spilled : Spilled policy capture spill) (opened : spill.file.closed = false)
    (unharmed : capture.failed = none) :
    Ends (append stream chunk reply.uninterrupted)
      (fun _ after => Spilled policy after
          { spill with file := spill.file.write chunk reply.toAnswer } ∧
        after.total = capture.total ∧ after.failed.isSome = reply.failure.isSome)
      raised capture := by
  have wrote := @Spilled.onFile _ _ _ (·.write chunk reply.toAnswer) spilled
    (fun closed => closed) spilled.kept
  refine .bind (.reads ?_)
  simp only [unharmed, spilled.file]
  refine .bind (exceptOsError_ends (.bind (open_ends spilled.found opened
    (blocking_ends ?_ ?_ nofun))))
  · intro _ accepted
    refine .returns (.updates ⟨{ wrote with }, rfl, ?_⟩)
    rw [show reply.failure = none from accepted]
    exact congrArg Option.isSome unharmed
  · intro name _ refused
    refine ⟨fun _ _ => ?_, fun other => absurd rfl (other name)⟩
    refine .bind (failStorage_ends fun events => .returns (.returns ⟨{ wrote with }, rfl, ?_⟩))
    rw [show reply.failure = some name from refused]
    rfl

/-- What an interrupted append leaves, beside what the uninterrupted one would have. -/
structure CutAppend (policy : FileBackedCapture) (write : Reply) (handed : List UInt8)
    (cut whole : FileAccumulator) : Prop where
  cancelled : write.cancelled = true
  spill : ∃ spill, Spilled policy cut spill ∧ Spilled policy whole spill ∧
    spill.file.closed = false
  total : cut.total = handed.length ∧ whole.total = handed.length
  unharmed : cut.failed = none
  heard : whole.failed.isSome = write.failure.isSome

theorem absorb_cut_in_file {chunk : List UInt8} {write : Reply} {replies : SpillReplies}
    {error : Raised} {after : FileAccumulator}
    (sound : Sound policy False handed false false capture) (path : capture.path.isSome = true)
    (cut : absorb policy stream chunk write replies capture = .error error after) :
    error = .cancelled ∧ capture.failed = none ∧
      ∃ whole, absorb policy stream chunk write.uninterrupted (replies.map .uninterrupted) capture =
        .ok () whole ∧ CutAppend policy write (handed ++ chunk) after whole := by
  cases sound.phase with
  | memory memory =>
      rw [memory.path] at path
      contradiction
  | provisional spill provisional interrupted => contradiction
  | spilled spill spilled opened =>
      have shut : spill.file.closed = false :=
        Bool.eq_false_iff.mpr fun closed => nomatch opened closed
      have length : capture.total + chunk.length = (handed ++ chunk).length := by
        rw [sound.total, List.length_append]
      have counted : Spilled policy { capture with total := capture.total + chunk.length }
          spill := { spilled with }
      have wrote := @Spilled.onFile _ _ _ (·.write chunk write.toAnswer) counted
        (fun closed => closed) counted.kept
      have ended : Ends (absorb policy stream chunk write replies) (fun _ _ => True)
          (fun error after => error = .cancelled ∧ capture.failed = none ∧
            write.cancelled = true ∧ after =
              ({ capture with total := capture.total + chunk.length } : FileAccumulator).onFile 0
                (·.write chunk write.toAnswer)) capture := by
        refine .bind (.updates (.bind (.reads ?_)))
        split
        · exact append_cut_ends counted shut
        · next none _ => exact nomatch spilled.path.symm.trans none
        · next none _ => exact nomatch spilled.path.symm.trans none
      unfold Ends at ended
      rw [cut] at ended
      obtain ⟨rfl, unharmed, cancelled, rfl⟩ := ended
      have whole : Ends (absorb policy stream chunk write.uninterrupted
      (replies.map .uninterrupted))
          (fun _ after => Spilled policy after
              { spill with file := spill.file.write chunk write.toAnswer } ∧
            after.total = capture.total + chunk.length ∧
              after.failed.isSome = write.failure.isSome)
          (fun _ _ => True) capture := by
        refine .bind (.updates (.bind (.reads ?_)))
        split
        · exact append_uninterrupted counted shut unharmed
        · next none _ => exact nomatch spilled.path.symm.trans none
        · next none _ => exact nomatch spilled.path.symm.trans none
      obtain ⟨last, ran, -⟩ := @absorb_uninterrupted _ stream _ _ sound chunk write replies
      unfold Ends at whole
      rw [ran] at whole
      refine ⟨rfl, unharmed, last, ran, cancelled, ⟨_, wrote, whole.1, shut⟩, ⟨length, ?_⟩,
        unharmed, whole.2.2⟩
      exact whole.2.1.trans length

end Cuprum.Spill
