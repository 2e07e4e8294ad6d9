import Cuprum.Relay.Relaying

namespace Cuprum.Relay

open Effect

/-- Deeds of a pump that no longer writes. -/
def Unwritten (deeds : List Deed) : Prop :=
  ∀ deed ∈ deeds, deed ≠ .refused ∧ deed.handed = none ∧ deed.settles = false

namespace Unwritten

variable {deeds rest : List Deed}

theorem of_reading (reading : ∀ deed ∈ deeds, deed.isReading = true) : Unwritten deeds := by
  intro deed mem
  have reads := reading deed mem
  cases deed with
  | read | failed | expired => exact ⟨by simp, rfl, rfl⟩
  | wrote | refused | downstreamClosed | closed | suppressed | completed => contradiction

theorem append (unwritten : Unwritten deeds) (later : Unwritten rest) :
    Unwritten (deeds ++ rest) := by
  intro deed mem
  rcases List.mem_append.mp mem with first | second
  · exact unwritten deed first
  · exact later deed second

theorem accepted (unwritten : Unwritten deeds) : .refused ∉ deeds :=
  fun mem => (unwritten .refused mem).1 rfl

theorem handed_nil (unwritten : Unwritten deeds) : handed deeds = [] :=
  List.filterMap_eq_nil_iff.mpr fun deed mem => (unwritten deed mem).2.1

theorem unsettled (unwritten : Unwritten deeds) : Unsettled deeds :=
  fun deed mem => (unwritten deed mem).2.2

theorem faithful (unwritten : Unwritten rest) {chunk : List UInt8}
    (full : chunk.isEmpty = false) :
    Faithful ([.read chunk, .wrote chunk, .refused] ++ rest) :=
  .inr ⟨[.read chunk, .wrote chunk], rest, rfl, by simp, unwritten.accepted,
    (Flowing.accepts full).whole, unwritten.handed_nil⟩

theorem refused_unsettled (unwritten : Unwritten rest) (chunk : List UInt8) :
    Unsettled ([.read chunk, .wrote chunk, .refused] ++ rest) := by
  refine Unsettled.append ?_ unwritten.unsettled
  simp [Unsettled, Deed.settles]

end Unwritten

/-- What a relay that returned has done, and what its outcome says of it. -/
structure Relaid (hasReader mistaken : Bool) (outcome : StreamOperationOutcome)
    (deeds : List Deed) : Prop where
  unsettled : Unsettled deeds
  readOn : ReadOn deeds
  told : mistaken = false → Truthful hasReader none deeds outcome
  mistold : mistaken = true → outcome = .postCloseDrainTimeout ∧ .expired ∉ deeds

/-- What a relay that raised has done. -/
structure Abandoned (mistaken : Bool) (deeds : List Deed) : Prop where
  unsettled : Unsettled deeds
  readOn : ReadOn deeds
  unmistaken : mistaken = false

theorem Flowing.relaid {deeds rest : List Deed} {hasReader mistaken : Bool}
    {outcome : StreamOperationOutcome} (flowing : Flowing deeds)
    (relaid : Relaid hasReader mistaken outcome rest) :
    Relaid hasReader mistaken outcome (deeds ++ rest) where
  unsettled := flowing.unsettled.append relaid.unsettled
  readOn := flowing.readOn relaid.readOn
  told unmistaken := flowing.truthful_iff.mpr (relaid.told unmistaken)
  mistold mistakes := by
    rw [Flowing.mem_append_iff flowing.timely]
    exact relaid.mistold mistakes

/-- How the drain after a refused write ends. -/
structure Leftover (mistaken : Bool) (outcome : StreamOperationOutcome)
    (deeds : List Deed) : Prop where
  unwritten : Unwritten deeds
  ending : (mistaken = false ∧ outcome = .downstreamClosed ∧ .read [] ∈ deeds) ∨
    (mistaken = false ∧ outcome = .postCloseDrainTimeout ∧ .expired ∈ deeds) ∨
    (mistaken = true ∧ outcome = .postCloseDrainTimeout ∧ .expired ∉ deeds ∧
      .failed .timeout ∈ deeds)

theorem leaves_bounded (window : Option Nat) (reads : List (Except Raised (List UInt8))) :
    recorder.Leaves (drainStreamReaderBoundedResult window reads)
      (fun timedOut deeds => Leftover (failsInWindow window reads)
        (if timedOut then .postCloseDrainTimeout else .downstreamClosed) deeds)
      (fun error deeds => Unwritten deeds ∧ .failed error ∈ deeds ∧
        failsInWindow window reads = false) := by
  refine .handle (Broken (failsInWindow window reads)) ?_ ?_
  · refine .bind _ (leaves_drain window reads) ?_
    rintro - deeds ⟨drained, unmistaken⟩
    refine .returns ?_
    rw [List.append_nil]
    exact ⟨.of_reading drained.reading, .inl ⟨unmistaken, rfl, drained.ended⟩⟩
  · intro error deeds broken
    have unwritten := Unwritten.of_reading broken.reading
    refine .branch (fun timedOut => .returns ?_) fun untimely => .raises ?_
    · rw [List.append_nil]
      refine ⟨unwritten, .inr ?_⟩
      rcases broken.cause with ⟨expired, -, unmistaken⟩ | ⟨timely, failed, mistaken⟩
      · exact .inl ⟨unmistaken, rfl, expired⟩
      · refine .inr ⟨?_, rfl, timely, timedOut ▸ failed⟩
        rw [mistaken, timedOut]
        rfl
    · rw [List.append_nil]
      rcases broken.cause with ⟨-, timedOut, -⟩ | ⟨-, failed, mistaken⟩
      · exact absurd timedOut untimely
      · exact ⟨unwritten, failed, by rw [mistaken, decide_eq_false untimely]⟩

theorem Leftover.logged {mistaken : Bool} {outcome : StreamOperationOutcome}
    {deeds : List Deed} (leftover : Leftover mistaken outcome deeds) (discarded : Nat) :
    Leftover mistaken outcome (deeds ++ [.downstreamClosed discarded]) where
  unwritten := leftover.unwritten.append (by simp [Unwritten, Deed.handed, Deed.settles])
  ending := by simpa using leftover.ending

theorem leaves_drainAfterClose (window : Option Nat)
    (reads : List (Except Raised (List UInt8))) :
    recorder.Leaves (drainAfterClose window reads) (Leftover (failsInWindow window reads))
      (fun error deeds => Unwritten deeds ∧ .failed error ∈ deeds ∧
        failsInWindow window reads = false) := by
  refine .bind _ (leaves_bounded window reads) ?_
  intro timedOut deeds leftover
  refine .bind (fun _ more => more = []) (.reads fun _ => rfl) ?_
  rintro transfer - rfl
  refine .bind (fun _ more => more = [.downstreamClosed transfer.discardedBytes])
    (leaves_note rfl rfl) ?_
  rintro - - rfl
  have logged := leftover.logged transfer.discardedBytes
  refine .branch (fun expired => .returns ?_) fun timely => .returns ?_
  · rwa [if_pos expired] at logged
  · rwa [if_neg timely] at logged

/-- A refused write, and what the drain makes of it. -/
theorem Leftover.relaid {mistaken : Bool} {outcome : StreamOperationOutcome}
    {deeds : List Deed} (leftover : Leftover mistaken outcome deeds) (chunk : List UInt8) :
    Relaid true mistaken outcome ([.read chunk, .wrote chunk, .refused] ++ deeds) := by
  have started : ∀ {deed : Deed}, deed ∈ deeds →
      deed ∈ [.read chunk, .wrote chunk, .refused] ++ deeds :=
    List.mem_append_right _
  have refused : .refused ∈ [.read chunk, .wrote chunk, .refused] ++ deeds := by simp
  have unsettled := leftover.unwritten.refused_unsettled chunk
  rcases leftover.ending with ⟨unmistaken, rfl, ended⟩ | ⟨unmistaken, rfl, expired⟩ |
    ⟨mistaken, rfl, timely, failed⟩
  · refine ⟨unsettled, fun _ => .inl (started ended), fun _ => ⟨rfl, refused, started ended⟩, ?_⟩
    intro mistaken
    rw [unmistaken] at mistaken
    contradiction
  · refine ⟨unsettled, fun _ => .inr (.inl (started expired)),
      fun _ => ⟨rfl, refused, started expired⟩, ?_⟩
    intro mistaken
    rw [unmistaken] at mistaken
    contradiction
  · refine ⟨unsettled, fun _ => .inr (.inr ⟨.timeout, started failed⟩), ?_, fun _ => ⟨rfl, ?_⟩⟩
    · intro unmistaken
      rw [mistaken] at unmistaken
      contradiction
    · rw [Flowing.mem_append_iff (by simp)]
      exact timely

section

variable {window : Option Nat} {writes : List WriteReply}
  {reads : List (Except Raised (List UInt8))}

theorem misread_accepted {chunk : List UInt8} (full : chunk.isEmpty = false)
    (accepted : (writes.headD {}).failure = none) :
    misread window writes (.ok chunk :: reads) = misread window writes.tail reads := by
  simp only [misread, full, accepted, Bool.not_false, Bool.true_and]

theorem misread_failed {chunk : List UInt8} (full : chunk.isEmpty = false) {error : Raised}
    (failed : (writes.headD {}).failure = some error) :
    misread window writes (.ok chunk :: reads) =
      (error.isClosedPipe && failsInWindow window reads) := by
  simp only [misread, full, failed, Bool.not_false, Bool.true_and]

theorem relaid_eof : Relaid true false .eof [.read []] where
  unsettled := by simp [Unsettled, Deed.settles]
  readOn := fun _ => .inl (by simp)
  told := fun _ => ⟨rfl, by simp, fun _ => by simp⟩
  mistold := by simp

theorem faithful_of_no_write {deed : Deed} (unrefused : deed ≠ .refused)
    (unhanded : deed.handed = none) (nothing : chunks [deed] = []) : Faithful [deed] := by
  refine .inl ⟨by simpa using unrefused.symm, ?_⟩
  rw [nothing, handed, List.filterMap_cons_none unhanded, List.filterMap_nil]

theorem leaves_relayToWriter (window : Option Nat) (writes : List WriteReply)
    (reads : List (Except Raised (List UInt8))) :
    recorder.Leaves (relayToWriter window writes reads)
      (fun outcome deeds => Faithful deeds ∧
        Relaid true (misread window writes reads) outcome deeds)
      (fun _ deeds => Faithful deeds ∧ Abandoned (misread window writes reads) deeds) := by
  fun_induction relayToWriter window writes reads with
  | case1 writes =>
      refine .bind (fun _ deeds => deeds = [.read []])
        (leaves_takeRead (fun chunk taken => ?_) fun error failed => ?_) ?_
      · cases taken
        rfl
      · cases failed
      rintro - - rfl
      exact .returns ⟨faithful_of_no_write (by simp) rfl rfl, relaid_eof⟩
  | case2 writes reply rest ih =>
      refine .bind (fun chunk deeds => reply = .ok chunk ∧ deeds = [.read chunk])
        (leaves_takeRead (fun chunk taken => ⟨taken, rfl⟩) fun error failed => ?_) ?_
      · cases failed
        refine ⟨faithful_of_no_write (by simp) rfl rfl, by simp [Unsettled, Deed.settles],
          ?_, ?_⟩
        · intro refused
          simp at refused
        · rw [misread]
      rintro chunk - ⟨rfl, rfl⟩
      refine .branch (fun empty => ?_) fun filled => ?_
      · cases List.isEmpty_iff.mp empty
        exact .returns ⟨faithful_of_no_write (by simp) rfl rfl, relaid_eof⟩
      have full := Bool.eq_false_iff.mpr filled
      have flowing := Flowing.accepts full
      refine .bind (fun written deeds =>
        (written = .opened ∧ (writes.headD {}).failure = none ∧ deeds = [.wrote chunk]) ∨
          (written = .closed ∧ deeds = [.wrote chunk, .refused] ∧
            ∃ error, (writes.headD {}).failure = some error ∧ error.isClosedPipe = true))
        (leaves_write (fun accepted => .inl ⟨rfl, accepted, rfl⟩)
          (fun error refused closed => .inr ⟨rfl, rfl, error, refused, closed⟩) ?_) ?_
      · intro error failed unclosed
        refine ⟨.inl ⟨flowing.accepted, flowing.whole⟩, flowing.unsettled, ?_, ?_⟩
        · intro refused
          exact absurd refused flowing.accepted
        · rw [misread_failed full failed, unclosed, Bool.false_and]
      rintro written deeds (⟨rfl, accepted, rfl⟩ | ⟨rfl, rfl, error, refused, closed⟩)
      · rw [misread_accepted full accepted]
        refine ih.mono ?_ ?_
        · rintro outcome more ⟨faithful, relaid⟩
          exact ⟨flowing.faithful faithful, flowing.relaid relaid⟩
        · rintro error more ⟨faithful, abandoned⟩
          exact ⟨flowing.faithful faithful, flowing.unsettled.append abandoned.unsettled,
            flowing.readOn abandoned.readOn, abandoned.unmistaken⟩
      · rw [misread_failed full refused, closed, Bool.true_and]
        refine (leaves_drainAfterClose window rest).mono ?_ ?_
        · intro outcome more leftover
          exact ⟨leftover.unwritten.faithful full, leftover.relaid chunk⟩
        · rintro error more ⟨unwritten, failed, unmistaken⟩
          refine ⟨unwritten.faithful full, unwritten.refused_unsettled chunk, ?_, unmistaken⟩
          exact fun _ => .inr (.inr ⟨error, by simp only [List.mem_append, failed, or_true]⟩)

end

variable (replies : Replies)

/-- What has become of the chunks, with and without a writer. -/
def Carried (hasWriter : Bool) (deeds : List Deed) : Prop :=
  if hasWriter then Faithful deeds else .refused ∉ deeds ∧ handed deeds = []

def Replies.misread : Bool :=
  replies.hasWriter && Relay.misread replies.window replies.writes replies.reads

theorem leaves_relayChunks :
    recorder.Leaves (relayChunks replies)
      (fun outcome deeds => Carried replies.hasWriter deeds ∧
        Relaid true replies.misread outcome deeds)
      (fun _ deeds => Carried replies.hasWriter deeds ∧ Abandoned replies.misread deeds) := by
  unfold relayChunks Carried Replies.misread
  refine .branch (fun written => ?_) fun unwritten => ?_
  · rw [written, Bool.true_and]
    exact leaves_relayToWriter replies.window replies.writes replies.reads
  · rw [Bool.eq_false_iff.mpr unwritten, Bool.false_and]
    refine .bind _ ((leaves_drain none replies.reads).mono (fun _ _ returns => returns) ?_) ?_
    · intro error deeds broken
      have idle := Unwritten.of_reading broken.reading
      exact ⟨⟨idle.accepted, idle.handed_nil⟩, idle.unsettled, fun refused => absurd refused idle.accepted, rfl⟩
    · rintro - deeds ⟨drained, -⟩
      have idle := Unwritten.of_reading drained.reading
      refine .returns ?_
      rw [List.append_nil]
      refine ⟨⟨idle.accepted, idle.handed_nil⟩, idle.unsettled,
        fun refused => absurd refused idle.accepted, fun _ => ⟨rfl, idle.accepted, fun _ => drained.ended⟩, ?_⟩
      intro mistaken
      contradiction

end Cuprum.Relay
