import Cuprum.Relay.Transfer

namespace Cuprum.Relay

open Effect

def StreamOperationMeasurement.after (self : StreamOperationMeasurement)
    (reads : List (List UInt8)) : StreamOperationMeasurement :=
  reads.foldl recordRead self

/-- The deeds of a pump show in its trace and in its counts, and leave the outcome to
be assigned. -/
structure Did (before : Transfer) (deeds : List Deed) (after : Transfer) : Prop where
  noted : after.deeds = before.deeds ++ deeds
  counted : after.measurement = before.measurement.map (·.after (received deeds))
  outcome : after.outcome = before.outcome

theorem Did.idle (state : Transfer) : Did state [] state where
  noted := (List.append_nil state.deeds).symm
  counted := by cases state.measurement <;> rfl
  outcome := rfl

theorem Did.followed {before middle after : Transfer} {deeds rest : List Deed}
    (did : Did before deeds middle) (later : Did middle rest after) :
    Did before (deeds ++ rest) after where
  noted := by rw [later.noted, did.noted, List.append_assoc]
  counted := by
    rw [later.counted, did.counted, Option.map_map, received_append]
    congr 1
    funext measurement
    exact List.foldl_append.symm
  outcome := later.outcome.trans did.outcome

def recorder : Recorder Transfer Deed where
  did := Did
  idle := Did.idle
  followed := Did.followed

variable {returned : Unit → List Deed → Prop} {raised : Raised → List Deed → Prop}

theorem leaves_note {deed : Deed} (unread : deed.received = none)
    (holds : returned () [deed]) : recorder.Leaves (note deed) returned raised := by
  refine .updates [deed] (fun before => ⟨rfl, ?_, rfl⟩) holds
  rw [received, List.filterMap_cons_none unread, List.filterMap_nil]
  cases before.measurement <;> rfl

theorem leaves_takeRead {taken : List UInt8 → List Deed → Prop}
    {reply : Except Raised (List UInt8)}
    (returns : ∀ chunk, reply = .ok chunk → taken chunk [.read chunk])
    (raises : ∀ error, reply = .error error → raised error [.failed error]) :
    recorder.Leaves (takeRead reply) taken raised := by
  cases reply with
  | error error =>
      refine .bind (fun _ deeds => deeds = [.failed error]) (leaves_note rfl rfl) ?_
      rintro - - rfl
      exact .raises (raises error rfl)
  | ok chunk =>
      intro before
      exact .bind (.updates (.bind (.updates (.returns
        ⟨[.read chunk], ⟨rfl, rfl, rfl⟩, returns chunk rfl⟩))))

def WriteReply.failure (reply : WriteReply) : Option Raised :=
  reply.write <|> reply.drain

theorem leaves_write {chunk : List UInt8} {reply : WriteReply}
    {written : WriteOutcome → List Deed → Prop}
    (accepts : reply.failure = none → written .opened [.wrote chunk])
    (refuses : ∀ error, reply.failure = some error → error.isClosedPipe = true →
      written .closed [.wrote chunk, .refused])
    (fails : ∀ error, reply.failure = some error → error.isClosedPipe = false →
      raised error [.wrote chunk]) :
    recorder.Leaves (writeToStreamWriter chunk reply) written raised := by
  refine .handle (fun error deeds =>
    deeds = [.wrote chunk] ∧ reply.failure = some error) ?_ ?_
  · refine .bind (fun _ deeds => deeds = [.wrote chunk]) (leaves_note rfl rfl) ?_
    rintro - - rfl
    refine .bind (fun _ deeds => deeds = [] ∧ reply.write = none)
      (.attempt (fun silent => ⟨rfl, silent⟩) fun error answers => ⟨rfl, ?_⟩) ?_
    · rw [WriteReply.failure, answers]
      rfl
    rintro - - ⟨rfl, unraised⟩
    refine .bind (fun _ deeds => deeds = [] ∧ reply.drain = none)
      (.attempt (fun silent => ⟨rfl, silent⟩) fun error answers => ⟨rfl, ?_⟩) ?_
    · rw [WriteReply.failure, unraised, answers]
      rfl
    rintro - - ⟨rfl, drained⟩
    refine .returns (accepts ?_)
    rw [WriteReply.failure, unraised, drained]
    rfl
  · rintro error - ⟨rfl, failure⟩
    refine .branch (fun closed => ?_) fun unclosed => .raises ?_
    · refine .bind (fun _ deeds => deeds = [.refused]) (leaves_note rfl rfl) ?_
      rintro - - rfl
      exact .returns (refuses error failure closed)
    · exact fails error failure (Bool.eq_false_iff.mpr unclosed)

/-- Whether a drain meets a read that raises `TimeoutError` before it ends. -/
def failsInWindow : Option Nat → List (Except Raised (List UInt8)) → Bool
  | some 0, _ | _, [] => false
  | _, .error error :: _ => error = .timeout
  | window, .ok chunk :: rest => !chunk.isEmpty && failsInWindow (window.map Nat.pred) rest

/-- Whether the drain after a refused write meets such a read. -/
def misread (window : Option Nat) :
    List WriteReply → List (Except Raised (List UInt8)) → Bool
  | _, [] | _, .error _ :: _ => false
  | writes, .ok chunk :: rest =>
      !chunk.isEmpty &&
        match (writes.headD {}).failure with
        | none => misread window writes.tail rest
        | some error => error.isClosedPipe && failsInWindow window rest

/-- The deeds of a drain that reaches the end of the stream. -/
structure Drained (deeds : List Deed) : Prop where
  reading : ∀ deed ∈ deeds, deed.isReading = true
  ended : .read [] ∈ deeds
  timely : .expired ∉ deeds

/-- The deeds of a drain that a read or its window ends, and whether it was a read that
raised `TimeoutError`. -/
structure Broken (mistaken : Bool) (error : Raised) (deeds : List Deed) : Prop where
  reading : ∀ deed ∈ deeds, deed.isReading = true
  unended : .read [] ∉ deeds
  cause : (.expired ∈ deeds ∧ error = .timeout ∧ mistaken = false) ∨
    (.expired ∉ deeds ∧ .failed error ∈ deeds ∧ mistaken = decide (error = .timeout))

theorem Drained.cons {deeds : List Deed} (drained : Drained deeds) (chunk : List UInt8) :
    Drained (.read chunk :: deeds) where
  reading := List.forall_mem_cons.mpr ⟨rfl, drained.reading⟩
  ended := List.mem_cons_of_mem _ drained.ended
  timely := by simpa using drained.timely

theorem Broken.cons {mistaken : Bool} {error : Raised} {deeds : List Deed}
    (broken : Broken mistaken error deeds) {chunk : List UInt8}
    (full : chunk.isEmpty = false) : Broken mistaken error (.read chunk :: deeds) where
  reading := List.forall_mem_cons.mpr ⟨rfl, broken.reading⟩
  unended := by
    rintro (_ | ⟨_, later⟩)
    · contradiction
    · exact broken.unended later
  cause := by simpa using broken.cause

theorem leaves_discard (chunk : List UInt8) {after : Unit → List Deed → Prop}
    (holds : after () []) :
    recorder.Leaves (modify fun transfer : Transfer =>
      { transfer with discardedBytes := transfer.discardedBytes + chunk.length })
      after raised :=
  .updates [] (fun before => ⟨(List.append_nil _).symm, by cases before.measurement <;> rfl,
    rfl⟩) holds

section

variable {window : Option Nat} {rest : List (Except Raised (List UInt8))}

theorem failsInWindow_error (lasting : window ≠ some 0) (error : Raised) :
    failsInWindow window (.error error :: rest) = decide (error = .timeout) := by
  rw [failsInWindow]
  exact lasting

theorem failsInWindow_ok (lasting : window ≠ some 0) (chunk : List UInt8) :
    failsInWindow window (.ok chunk :: rest) =
      (!chunk.isEmpty && failsInWindow (window.map Nat.pred) rest) := by
  rw [failsInWindow]
  exact lasting

theorem leaves_draining {reply : Except Raised (List UInt8)} {next : Step Unit}
    (lasting : window ≠ some 0)
    (continues : recorder.Leaves next
      (fun _ deeds => Drained deeds ∧ failsInWindow (window.map Nat.pred) rest = false)
      (Broken (failsInWindow (window.map Nat.pred) rest))) :
    recorder.Leaves
      (do
        let chunk ← takeRead reply
        if chunk.isEmpty then pure ()
        else
          modify fun transfer : Transfer =>
            { transfer with discardedBytes := transfer.discardedBytes + chunk.length }
          next)
      (fun _ deeds => Drained deeds ∧ failsInWindow window (reply :: rest) = false)
      (Broken (failsInWindow window (reply :: rest))) := by
  refine .bind (fun chunk deeds => reply = .ok chunk ∧ deeds = [.read chunk])
    (leaves_takeRead (fun chunk taken => ⟨taken, rfl⟩) fun error failed => ?_) ?_
  · cases failed
    rw [failsInWindow_error lasting]
    exact ⟨by simp [Deed.isReading], by simp, .inr ⟨by simp, by simp, rfl⟩⟩
  rintro chunk - ⟨rfl, rfl⟩
  rw [failsInWindow_ok lasting]
  refine .branch (fun empty => ?_) fun full => ?_
  · cases List.isEmpty_iff.mp empty
    exact .returns ⟨⟨by simp [Deed.isReading], by simp, by simp⟩, rfl⟩
  · have filled := Bool.eq_false_iff.mpr full
    rw [filled, Bool.not_false, Bool.true_and]
    refine .bind (fun _ deeds => deeds = []) (leaves_discard chunk rfl) ?_
    rintro - - rfl
    refine continues.mono ?_ ?_
    · rintro - deeds ⟨drained, unmistaken⟩
      exact ⟨drained.cons chunk, unmistaken⟩
    · intro error deeds broken
      exact broken.cons filled

end

theorem leaves_end {mistaken : Bool} (unmistaken : mistaken = false) :
    recorder.Leaves (do let _ ← takeRead (.ok []))
      (fun _ deeds => Drained deeds ∧ mistaken = false) (Broken mistaken) := by
  refine .bind (fun _ deeds => deeds = [.read []])
    (leaves_takeRead (fun chunk taken => ?_) fun error failed => ?_) ?_
  · cases taken
    rfl
  · cases failed
  rintro - - rfl
  exact .returns ⟨⟨by simp [Deed.isReading], by simp, by simp⟩, unmistaken⟩

theorem leaves_drain (window : Option Nat) (reads : List (Except Raised (List UInt8))) :
    recorder.Leaves (drainStreamReader window reads)
      (fun _ deeds => Drained deeds ∧ failsInWindow window reads = false)
      (Broken (failsInWindow window reads)) := by
  fun_induction drainStreamReader window reads with
  | case1 reads =>
      refine .bind (fun _ deeds => deeds = [.expired]) (leaves_note rfl rfl) ?_
      rintro - - rfl
      refine .raises ⟨by simp [Deed.isReading], by simp, .inl ⟨by simp, rfl, ?_⟩⟩
      rw [failsInWindow]
  | case2 | case3 => exact leaves_end rfl
  | case4 reply rest ih =>
      have lasting : (none : Option Nat) ≠ some 0 := by simp
      exact leaves_draining lasting ih
  | case5 left reply rest ih =>
      have lasting : some (left + 1) ≠ some 0 := by simp
      exact leaves_draining lasting ih

end Cuprum.Relay
