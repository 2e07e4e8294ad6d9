import Mathlib.Data.List.Nodup

namespace Cuprum.LineStream

inductive StreamName
  | stdout
  | stderr
  deriving DecidableEq

/-- A decoded line; `number` is its place among the lines of its stream. -/
structure LineEvent where
  stream : StreamName
  number : Nat
  text : String
  deriving DecidableEq

/-- The helper task around `queue.put`. -/
inductive PutTask
  | absent
  | waiting (event : LineEvent)
  | cancelling (event : LineEvent)
  | done
  | cancelled
  deriving DecidableEq

inductive Raised
  | cancelled
  | error (name : String)
  deriving DecidableEq

inductive Reader
  | reading
  | delivering (event : LineEvent)
  | parked
  | leaving (raising : Bool)
  | ended (raised : Option Raised)
  deriving DecidableEq

/-- One stream's reader with its hook, and what has become of its lines:
`offered` by the reader, `begun` as publications, `enqueued` or `abandoned`. -/
structure Publisher where
  reader : Reader := .reading
  put : PutTask := .absent
  offered : List LineEvent := []
  begun : List LineEvent := []
  enqueued : List LineEvent := []
  abandoned : List LineEvent := []
  deriving DecidableEq

inductive PublisherEvent
  | offer (text : String)
  | publish
  | put
  | dropPut
  | settle
  | leave (keeps : Bool)
  | fail (name : String)
  | finish
  | cancel (keeps : Bool)
  deriving DecidableEq

namespace PutTask

def held : PutTask → List LineEvent
  | waiting event | cancelling event => [event]
  | _ => []

/-- `task.cancel()`, which a task that is done ignores. -/
def cancel : PutTask → PutTask
  | waiting event => cancelling event
  | put => put

def isOver : PutTask → Bool
  | done | cancelled => true
  | _ => false

end PutTask

/-- A cancelled hook ends the reader, unless a teardown that keeps the capture has
begun: then the reader goes on to its last lines. -/
def Reader.interrupted (settling keeps : Bool) : Reader :=
  if settling && keeps then .reading else .ended (some .cancelled)

namespace Publisher

/-- The hook is not called for a line that comes once the run settles. -/
def offer (publisher : Publisher) (stream : StreamName) (settling : Bool)
    (text : String) : Publisher :=
  let event : LineEvent := ⟨stream, publisher.offered.length, text⟩
  { publisher with
    offered := publisher.offered ++ [event]
    reader := if settling then .reading else .delivering event }

/-- `_put_line_or_settlement`, with whether the queue has room. -/
def publish (publisher : Publisher) (event : LineEvent) (settling room : Bool) :
    Publisher × Option LineEvent :=
  if settling then
    ({ publisher with reader := .reading }, none)
  else if room then
    ({ publisher with
        reader := .reading
        begun := publisher.begun ++ [event]
        enqueued := publisher.enqueued ++ [event] }, some event)
  else
    ({ publisher with
        reader := .parked
        put := .waiting event
        begun := publisher.begun ++ [event] }, none)

/-- The wait over the two helper tasks has ended: the put counts if it is done,
and is cancelled if it is not. -/
def settle (publisher : Publisher) : Publisher :=
  { publisher with reader := .leaving false, put := publisher.put.cancel }

/-- A cancellation, of the reader or of a hook it awaits.  A cancelled read is
absorbed where the capture is kept; the helper tasks are cancelled with their reader
and waited for. -/
def cancel (publisher : Publisher) (settling keeps : Bool) : Option Publisher :=
  match publisher.reader with
  | .reading =>
      some { publisher with reader := if keeps then .reading else .ended (some .cancelled) }
  | .delivering _ => some { publisher with reader := Reader.interrupted settling keeps }
  | .parked =>
      some { publisher with reader := .leaving true, put := publisher.put.cancel }
  | .leaving _ => some { publisher with reader := .leaving true }
  | .ended _ => none

/-- One step of the reader or of its put task, and the line it puts in the queue. -/
def next (publisher : Publisher) (stream : StreamName) (settling room : Bool) :
    PublisherEvent → Option (Publisher × Option LineEvent)
  | .offer text =>
      if publisher.reader = .reading then
        some (publisher.offer stream settling text, none)
      else
        none
  | .publish =>
      match publisher.reader with
      | .delivering event => some (publisher.publish event settling room)
      | _ => none
  | .put =>
      match publisher.put with
      | .waiting event =>
          if room then
            some ({ publisher with
              put := .done, enqueued := publisher.enqueued ++ [event] }, some event)
          else
            none
      | _ => none
  | .dropPut =>
      match publisher.put with
      | .cancelling event =>
          some ({ publisher with
            put := .cancelled, abandoned := publisher.abandoned ++ [event] }, none)
      | _ => none
  | .settle =>
      if publisher.reader = .parked ∧ (publisher.put = .done ∨ settling) then
        some (publisher.settle, none)
      else
        none
  | .leave keeps =>
      match publisher.reader with
      | .leaving raising =>
          if publisher.put.isOver then
            some ({ publisher with
              reader := if raising then Reader.interrupted settling keeps else .reading },
              none)
          else
            none
      | _ => none
  | .fail name =>
      match publisher.reader with
      | .reading | .delivering _ =>
          some ({ publisher with reader := .ended (some (.error name)) }, none)
      | _ => none
  | .finish =>
      if publisher.reader = .reading then
        some ({ publisher with reader := .ended none }, none)
      else
        none
  | .cancel keeps => (publisher.cancel settling keeps).map fun after => (after, none)

/-- What a step of the reader or of its put task can do. -/
inductive Moves (publisher : Publisher) (stream : StreamName) (settling room : Bool) :
    Publisher → Option LineEvent → Prop
  | offer (reading : publisher.reader = .reading) (text : String) :
      Moves publisher stream settling room (publisher.offer stream settling text) none
  | publish {event : LineEvent} (stage : publisher.reader = .delivering event) :
      Moves publisher stream settling room (publisher.publish event settling room).1
        (publisher.publish event settling room).2
  | put {event : LineEvent} (stage : publisher.put = .waiting event)
      (roomy : room = true) :
      Moves publisher stream settling room
        { publisher with put := .done, enqueued := publisher.enqueued ++ [event] }
        (some event)
  | dropPut {event : LineEvent} (stage : publisher.put = .cancelling event) :
      Moves publisher stream settling room
        { publisher with
          put := .cancelled, abandoned := publisher.abandoned ++ [event] } none
  | settle (parked : publisher.reader = .parked)
      (waited : publisher.put = .done ∨ settling = true) :
      Moves publisher stream settling room publisher.settle none
  | leave {raising : Bool} (stage : publisher.reader = .leaving raising)
      (finished : publisher.put.isOver = true) (keeps : Bool) :
      Moves publisher stream settling room
        { publisher with
          reader := if raising then Reader.interrupted settling keeps else .reading } none
  | finish (reading : publisher.reader = .reading) :
      Moves publisher stream settling room
        { publisher with reader := .ended none } none
  | stop (raised : Raised)
      (hooked : publisher.reader = .reading ∨ ∃ event, publisher.reader = .delivering event) :
      Moves publisher stream settling room { publisher with reader := .ended (some raised) } none
  | absorb (reading : publisher.reader = .reading) :
      Moves publisher stream settling room { publisher with reader := .reading } none
  | skip {event : LineEvent} (settled : settling = true)
      (stage : publisher.reader = .delivering event) :
      Moves publisher stream settling room { publisher with reader := .reading } none
  | stopParked (parked : publisher.reader = .parked) :
      Moves publisher stream settling room
        { publisher with reader := .leaving true, put := publisher.put.cancel } none
  | stopLeaving {raising : Bool} (stage : publisher.reader = .leaving raising) :
      Moves publisher stream settling room { publisher with reader := .leaving true } none

theorem moves_of_cancel {publisher after : Publisher} {stream : StreamName}
    {settling room keeps : Bool} (step : publisher.cancel settling keeps = some after) :
    publisher.Moves stream settling room after none := by
  unfold cancel at step
  cases stage : publisher.reader with
  | reading =>
      simp only [stage, Option.some.injEq] at step
      subst step
      cases keeps with
      | true => exact .absorb stage
      | false => exact .stop .cancelled (Or.inl stage)
  | delivering event =>
      simp only [stage, Option.some.injEq] at step
      subst step
      cases settled : settling && keeps with
      | true =>
          rw [Reader.interrupted, settled]
          exact .skip (Bool.and_eq_true_iff.mp settled).1 stage
      | false =>
          rw [Reader.interrupted, settled]
          exact .stop .cancelled (Or.inr ⟨event, stage⟩)
  | parked =>
      simp only [stage, Option.some.injEq] at step
      subst step
      exact .stopParked stage
  | leaving raising =>
      simp only [stage, Option.some.injEq] at step
      subst step
      exact .stopLeaving stage
  | ended raised => simp [stage] at step

theorem moves_of_next {publisher after : Publisher} {stream : StreamName}
    {settling room : Bool} {event : PublisherEvent} {line : Option LineEvent}
    (step : publisher.next stream settling room event = some (after, line)) :
    publisher.Moves stream settling room after line := by
  cases event with
  | offer text =>
      obtain ⟨reading, step⟩ := Option.ite_none_right_eq_some.mp step
      cases step
      exact .offer reading text
  | publish =>
      cases stage : publisher.reader with
      | delivering event =>
          simp only [next, stage, Option.some.injEq] at step
          have moves : publisher.Moves stream settling room _ _ := .publish stage
          rwa [step] at moves
      | reading | parked | leaving _ | ended _ => simp [next, stage] at step
  | put =>
      cases stage : publisher.put with
      | waiting event =>
          simp only [next, stage] at step
          obtain ⟨roomy, step⟩ := Option.ite_none_right_eq_some.mp step
          cases step
          exact .put stage roomy
      | absent | cancelling _ | done | cancelled => simp [next, stage] at step
  | dropPut =>
      cases stage : publisher.put with
      | cancelling event =>
          simp only [next, stage, Option.some.injEq] at step
          cases step
          exact .dropPut stage
      | absent | waiting _ | done | cancelled => simp [next, stage] at step
  | settle =>
      obtain ⟨⟨parked, waited⟩, step⟩ := Option.ite_none_right_eq_some.mp step
      cases step
      exact .settle parked waited
  | leave keeps =>
      cases stage : publisher.reader with
      | leaving raising =>
          simp only [next, stage] at step
          obtain ⟨finished, step⟩ := Option.ite_none_right_eq_some.mp step
          cases step
          exact .leave stage finished keeps
      | reading | delivering _ | parked | ended _ => simp [next, stage] at step
  | fail name =>
      cases stage : publisher.reader with
      | reading | delivering _ =>
          simp only [next, stage, Option.some.injEq] at step
          cases step
          exact .stop (.error name) (by simp [stage])
      | parked | leaving _ | ended _ => simp [next, stage] at step
  | finish =>
      obtain ⟨reading, step⟩ := Option.ite_none_right_eq_some.mp step
      cases step
      exact .finish reading
  | cancel keeps =>
      obtain ⟨cancelled, found, same⟩ := Option.map_eq_some_iff.mp step
      cases same
      exact moves_of_cancel found

/-- The line whose hook runs before its publication. -/
def delivering (publisher : Publisher) : List LineEvent :=
  match publisher.reader with
  | .delivering event => [event]
  | _ => []

/-- No publication of this stream will begin any more. -/
def Shut (publisher : Publisher) (settling : Bool) : Prop :=
  settling = true ∨ publisher.reader = .leaving true ∨
    ∃ raised, publisher.reader = .ended (some raised)

/-- What has been begun is what has been enqueued and at most one line more, held by
the put task or abandoned; and until the stream is shut nothing is left out. -/
structure Sound (publisher : Publisher) (stream : StreamName) (settling : Bool) : Prop where
  named : ∀ event ∈ publisher.offered, event.stream = stream
  numbered : publisher.offered.map LineEvent.number = List.range publisher.offered.length
  offers : publisher.begun <+: publisher.offered
  account : publisher.begun =
    publisher.enqueued ++ publisher.put.held ++ publisher.abandoned
  whole : ¬ publisher.Shut settling →
    publisher.offered = publisher.begun ++ publisher.delivering ∧ publisher.abandoned = []
  lost : publisher.abandoned ≠ [] → publisher.Shut settling ∧ publisher.put.held = []
  cancelling : ∀ event, publisher.put = .cancelling event → publisher.Shut settling
  waiting : ∀ event, publisher.put = .waiting event → publisher.reader = .parked
  parked : publisher.reader = .parked →
    publisher.put = .done ∨ ∃ event, publisher.put = .waiting event
  quiet : publisher.reader = .reading ∨ (∃ event, publisher.reader = .delivering event) ∨
    (∃ raised, publisher.reader = .ended raised) → publisher.put.held = []

namespace Sound

variable {publisher after : Publisher} {stream : StreamName} {settling : Bool}

theorem initial : Sound {} stream settling where
  named := by simp
  numbered := rfl
  offers := List.prefix_rfl
  account := rfl
  whole := fun _ => ⟨rfl, rfl⟩
  lost := fun lost => absurd rfl lost
  cancelling := by simp
  waiting := by simp
  parked := by simp
  quiet := fun _ => rfl

theorem settled (sound : publisher.Sound stream settling) : publisher.Sound stream true :=
  { sound with
    whole := fun unshut => absurd (Or.inl rfl) unshut
    lost := fun lost => ⟨Or.inl rfl, (sound.lost lost).2⟩
    cancelling := fun _ _ => Or.inl rfl }

theorem settling_of_shut (shut : publisher.Shut settling)
    (going : publisher.reader ≠ .leaving true)
    (running : ∀ raised, publisher.reader ≠ .ended raised) : settling = true := by
  rcases shut with settled | leaving | ⟨raised, ended⟩
  · exact settled
  · exact absurd leaving going
  · exact absurd ended (running (some raised))

/-- The reader moves on with its put task left as it is. -/
theorem move (sound : publisher.Sound stream settling) (reader : Reader)
    (shuts : publisher.Shut settling → Shut { publisher with reader := reader } settling)
    (whole : ¬ Shut { publisher with reader := reader } settling →
      delivering { publisher with reader := reader } = publisher.delivering)
    (waiting : ∀ event, publisher.put = .waiting event → reader = .parked)
    (parked : reader ≠ .parked)
    (quiet : reader = .reading ∨ (∃ event, reader = .delivering event) ∨
      (∃ raised, reader = .ended raised) → publisher.put.held = []) :
    Sound { publisher with reader := reader } stream settling :=
  { sound with
    whole := by
      intro unshut
      obtain ⟨offered, kept⟩ := sound.whole fun shut => unshut (shuts shut)
      refine ⟨?_, kept⟩
      rw [whole unshut]
      exact offered
    lost := fun lost => ⟨shuts (sound.lost lost).1, (sound.lost lost).2⟩
    cancelling := fun event cancelling => shuts (sound.cancelling event cancelling)
    waiting := waiting
    parked := fun stays => absurd stays parked
    quiet := quiet }

theorem offer (sound : publisher.Sound stream settling)
    (reading : publisher.reader = .reading) (text : String) :
    (publisher.offer stream settling text).Sound stream settling := by
  have quiet := sound.quiet (Or.inl reading)
  have unparked : ∀ event, publisher.put ≠ .waiting event := by
    intro event waiting
    rw [waiting] at quiet
    cases quiet
  have settles (shut : publisher.Shut settling) : settling = true :=
    settling_of_shut shut (by simp [reading]) (by simp [reading])
  have grows : publisher.offered <+: publisher.offered ++
      [⟨stream, publisher.offered.length, text⟩] := List.prefix_append _ _
  exact {
    named := by
      intro event member
      rcases List.mem_append.mp member with earlier | new
      · exact sound.named event earlier
      · rw [List.mem_singleton.mp new]
    numbered := by
      change List.map _ (publisher.offered ++ [_]) = List.range (publisher.offered ++ [_]).length
      rw [List.map_append, sound.numbered, List.length_append, List.length_singleton,
        List.range_succ]
      rfl
    offers := sound.offers.trans grows
    account := sound.account
    whole := by
      intro unshut
      have running : settling = false := by
        cases settling with
        | true => exact absurd (Or.inl rfl) unshut
        | false => rfl
      obtain ⟨offered, kept⟩ := sound.whole fun shut => by
        rw [settles shut] at running
        cases running
      refine ⟨?_, kept⟩
      have all : publisher.offered = publisher.begun := by
        simpa [delivering, reading] using offered
      simp [Publisher.offer, delivering, running, all]
    lost := fun lost => ⟨Or.inl (settles (sound.lost lost).1), quiet⟩
    cancelling := fun event cancelling =>
      Or.inl (settles (sound.cancelling event cancelling))
    waiting := fun event waiting => absurd waiting (unparked event)
    parked := by
      intro parked
      cases settling <;> cases parked
    quiet := fun _ => quiet }

theorem publish (sound : publisher.Sound stream settling) {event : LineEvent}
    (stage : publisher.reader = .delivering event) (room : Bool) :
    (publisher.publish event settling room).1.Sound stream settling := by
  have quiet := sound.quiet (Or.inr (Or.inl ⟨event, stage⟩))
  have unparked : ∀ event, publisher.put ≠ .waiting event := by
    intro event waiting
    rw [waiting] at quiet
    cases quiet
  have settles (shut : publisher.Shut settling) : settling = true :=
    settling_of_shut shut (by simp [stage]) (by simp [stage])
  unfold Publisher.publish
  cases settling with
  | true =>
      apply sound.move .reading (fun _ => Or.inl rfl)
      · intro unshut
        exact absurd (Or.inl rfl) unshut
      · intro waited waiting
        exact absurd waiting (unparked waited)
      · exact Reader.noConfusion
      · intro _
        exact quiet
  | false =>
      have unshut : ¬ publisher.Shut false := fun shut => nomatch settles shut
      obtain ⟨offered, kept⟩ := sound.whole unshut
      have all : publisher.offered = publisher.begun ++ [event] := by
        simpa [delivering, stage] using offered
      have account := sound.account
      rw [quiet, kept] at account
      cases room with
      | true =>
          exact {
            named := sound.named
            numbered := sound.numbered
            offers := by
              rw [all]
              exact List.prefix_rfl
            account := by
              change publisher.begun ++ [event] =
                publisher.enqueued ++ [event] ++ publisher.put.held ++ publisher.abandoned
              rw [quiet, kept, account]
              simp
            whole := fun _ => ⟨by simpa [delivering] using all, kept⟩
            lost := fun lost => absurd kept lost
            cancelling := by
              intro cancelled cancelling
              exact absurd (sound.cancelling cancelled cancelling) unshut
            waiting := fun waited waiting => absurd waiting (unparked waited)
            parked := fun parked => nomatch parked
            quiet := fun _ => quiet }
      | false =>
          exact {
            named := sound.named
            numbered := sound.numbered
            offers := by
              rw [all]
              exact List.prefix_rfl
            account := by
              change publisher.begun ++ [event] =
                publisher.enqueued ++ [event] ++ publisher.abandoned
              rw [kept, account]
              simp
            whole := fun _ => ⟨by simpa [delivering] using all, kept⟩
            lost := fun lost => absurd kept lost
            cancelling := fun _ cancelling => nomatch cancelling
            waiting := fun _ _ => rfl
            parked := fun _ => Or.inr ⟨event, rfl⟩
            quiet := by simp }

theorem put (sound : publisher.Sound stream settling) {event : LineEvent}
    (stage : publisher.put = .waiting event) :
    Sound { publisher with put := .done, enqueued := publisher.enqueued ++ [event] }
      stream settling := by
  have parked := sound.waiting event stage
  have kept : publisher.abandoned = [] := by
    cases lost : publisher.abandoned with
    | nil => rfl
    | cons first rest =>
        have held := (sound.lost (by simp [lost])).2
        rw [stage] at held
        cases held
  have account := sound.account
  rw [stage, kept] at account
  exact {
    named := sound.named
    numbered := sound.numbered
    offers := sound.offers
    account := by
      change publisher.begun = publisher.enqueued ++ [event] ++ [] ++ publisher.abandoned
      rw [account, kept]
      simp [PutTask.held]
    whole := fun unshut => sound.whole unshut
    lost := fun lost => absurd kept lost
    cancelling := fun _ cancelling => nomatch cancelling
    waiting := fun _ waiting => nomatch waiting
    parked := fun _ => Or.inl rfl
    quiet := fun _ => rfl }

theorem dropPut (sound : publisher.Sound stream settling) {event : LineEvent}
    (stage : publisher.put = .cancelling event) :
    Sound { publisher with put := .cancelled, abandoned := publisher.abandoned ++ [event] }
      stream settling := by
  have shut := sound.cancelling event stage
  have kept : publisher.abandoned = [] := by
    cases lost : publisher.abandoned with
    | nil => rfl
    | cons first rest =>
        have held := (sound.lost (by simp [lost])).2
        rw [stage] at held
        cases held
  have account := sound.account
  rw [stage, kept] at account
  exact {
    named := sound.named
    numbered := sound.numbered
    offers := sound.offers
    account := by
      rw [account, kept]
      simp [PutTask.held]
    whole := fun unshut => absurd shut unshut
    lost := fun _ => ⟨shut, rfl⟩
    cancelling := fun _ cancelling => nomatch cancelling
    waiting := fun _ waiting => nomatch waiting
    parked := by
      intro parked
      rcases sound.parked parked with put | ⟨waited, waiting⟩
      · rw [stage] at put
        cases put
      · rw [stage] at waiting
        cases waiting
    quiet := fun _ => rfl }

/-- A parked reader leaves its wait; a put that is not done yet is cancelled, and then
the stream is shut. -/
theorem depart (sound : publisher.Sound stream settling)
    (parked : publisher.reader = .parked) (raising : Bool)
    (shuts : publisher.put ≠ .done → settling = true ∨ raising = true) :
    Sound { publisher with reader := .leaving raising, put := publisher.put.cancel }
      stream settling := by
  have settles (shut : publisher.Shut settling) : settling = true :=
    settling_of_shut shut (by simp [parked]) (by simp [parked])
  rcases sound.parked parked with put | ⟨event, waiting⟩
  · have same : publisher.put.cancel = publisher.put := by
      rw [put]
      rfl
    rw [same]
    apply sound.move (.leaving raising) (fun shut => Or.inl (settles shut))
    · intro _
      simp [delivering, parked]
    · intro event waiting
      rw [put] at waiting
      cases waiting
    · exact Reader.noConfusion
    · simp
  · have shut : Shut { publisher with
        reader := .leaving raising, put := publisher.put.cancel } settling := by
      rcases shuts (by simp [waiting]) with settled | raises
      · exact Or.inl settled
      · rw [raises]
        exact Or.inr (Or.inl rfl)
    have held : publisher.put.cancel.held = publisher.put.held := by
      rw [waiting]
      rfl
    exact {
      named := sound.named
      numbered := sound.numbered
      offers := sound.offers
      account := by
        change publisher.begun =
          publisher.enqueued ++ publisher.put.cancel.held ++ publisher.abandoned
        rw [held]
        exact sound.account
      whole := fun unshut => absurd shut unshut
      lost := by
        intro lost
        have none_held := (sound.lost lost).2
        rw [waiting] at none_held
        cases none_held
      cancelling := fun _ _ => shut
      waiting := by
        intro waited still
        change publisher.put.cancel = _ at still
        rw [waiting] at still
        cases still
      parked := fun stays => nomatch stays
      quiet := by simp }

theorem leave (sound : publisher.Sound stream settling) {raising : Bool}
    (stage : publisher.reader = .leaving raising) (ends : publisher.put.isOver = true)
    (keeps : Bool) :
    Sound { publisher with
      reader := if raising then Reader.interrupted settling keeps else .reading }
      stream settling := by
  have held : publisher.put.held = [] := by
    cases put : publisher.put with
    | done | cancelled | absent => rfl
    | waiting event | cancelling event => simp [put, PutTask.isOver] at ends
  apply sound.move
  · intro shut
    cases raising with
    | true =>
        unfold Reader.interrupted
        cases settled : settling && keeps with
        | true => exact Or.inl (Bool.and_eq_true_iff.mp settled).1
        | false => exact Or.inr (Or.inr ⟨.cancelled, rfl⟩)
    | false => exact Or.inl (settling_of_shut shut (by simp [stage]) (by simp [stage]))
  · intro _
    cases raising <;> cases settling <;> cases keeps <;>
      simp [delivering, stage, Reader.interrupted]
  · intro event waiting
    rw [waiting] at held
    cases held
  · cases raising <;> cases settling <;> cases keeps <;> exact Reader.noConfusion
  · intro _
    exact held

/-- Away from its put task, the reader moves to a stage with no hook. -/
theorem turn (sound : publisher.Sound stream settling) (reader : Reader)
    (hooked : publisher.reader = .reading ∨ ∃ event, publisher.reader = .delivering event)
    (turned : reader = .reading ∨ ∃ raised, reader = .ended raised)
    (left : ¬ Shut { publisher with reader := reader } settling →
      publisher.reader = .reading) :
    Sound { publisher with reader := reader } stream settling := by
  have quiet : publisher.put.held = [] :=
    sound.quiet (hooked.imp id Or.inl)
  apply sound.move
  · intro shut
    apply Or.inl
    apply settling_of_shut shut
    · rcases hooked with reading | ⟨event, delivering⟩
      · simp [reading]
      · simp [delivering]
    · rcases hooked with reading | ⟨event, delivering⟩
      · simp [reading]
      · simp [delivering]
  · intro unshut
    rcases turned with turned | ⟨raised, turned⟩ <;>
      simp [delivering, turned, left unshut]
  · intro event waiting
    rw [waiting] at quiet
    cases quiet
  · rcases turned with turned | ⟨raised, turned⟩ <;> simp [turned]
  · intro _
    exact quiet

/-- Cancelled once more while it waits for its helper tasks. -/
theorem stopLeaving (sound : publisher.Sound stream settling) {raising : Bool}
    (stage : publisher.reader = .leaving raising) :
    Sound { publisher with reader := .leaving true } stream settling := by
  apply sound.move (.leaving true) (fun _ => Or.inr (Or.inl rfl))
  · intro unshut
    exact absurd (Or.inr (Or.inl rfl)) unshut
  · intro event waiting
    have parked := sound.waiting event waiting
    rw [stage] at parked
    cases parked
  · exact Reader.noConfusion
  · simp

theorem moves {room : Bool} {line : Option LineEvent}
    (sound : publisher.Sound stream settling)
    (step : publisher.Moves stream settling room after line) :
    after.Sound stream settling := by
  cases step with
  | offer reading text => exact sound.offer reading text
  | publish stage => exact sound.publish stage room
  | put stage => exact sound.put stage
  | dropPut stage => exact sound.dropPut stage
  | settle parked waited =>
      apply sound.depart parked false
      intro pending
      exact Or.inl (waited.resolve_left pending)
  | leave stage finished keeps => exact sound.leave stage finished keeps
  | finish reading =>
      exact sound.turn _ (Or.inl reading) (Or.inr ⟨_, rfl⟩) fun _ => reading
  | stop raised hooked =>
      apply sound.turn _ hooked (Or.inr ⟨some raised, rfl⟩)
      intro unshut
      exact absurd (Or.inr (Or.inr ⟨raised, rfl⟩)) unshut
  | absorb reading => exact sound.turn _ (Or.inl reading) (Or.inl rfl) fun _ => reading
  | skip settled stage =>
      apply sound.turn _ (Or.inr ⟨_, stage⟩) (Or.inl rfl)
      intro unshut
      exact absurd (Or.inl settled) unshut
  | stopParked parked => exact sound.depart parked true fun _ => Or.inr rfl
  | stopLeaving stage => exact sound.stopLeaving stage

theorem enqueued_named (sound : publisher.Sound stream settling) {event : LineEvent}
    (member : event ∈ publisher.enqueued) : event.stream = stream := by
  apply sound.named
  apply sound.offers.subset
  rw [sound.account]
  simp [member]

end Sound

namespace Moves

variable {publisher after : Publisher} {stream : StreamName} {settling room : Bool}
  {line : Option LineEvent}

theorem enqueued (step : publisher.Moves stream settling room after line) :
    after.enqueued = publisher.enqueued ++ line.toList ∧ (line.isSome → room = true) := by
  cases step with
  | publish stage => cases settling <;> cases room <;> simp [Publisher.publish]
  | put stage roomy => exact ⟨rfl, fun _ => roomy⟩
  | offer | dropPut | settle | leave | finish | stop | absorb | skip | stopParked
  | stopLeaving =>
      refine ⟨(List.append_nil _).symm, ?_⟩
      intro some
      cases some

theorem begun (step : publisher.Moves stream true room after line) :
    after.begun = publisher.begun := by
  cases step <;> rfl

theorem not_ended (step : publisher.Moves stream settling room after line)
    (sound : publisher.Sound stream settling) (raised : Option Raised) :
    publisher.reader ≠ .ended raised := by
  intro ended
  have quiet := sound.quiet (Or.inr (Or.inr ⟨raised, ended⟩))
  cases step with
  | put stage | dropPut stage =>
      rw [stage] at quiet
      cases quiet
  | stop _ hooked => simp [ended] at hooked
  | skip _ stage =>
      rw [ended] at stage
      cases stage
  | offer stage | publish stage | settle stage | leave stage | finish stage
  | absorb stage | stopParked stage | stopLeaving stage =>
      rw [ended] at stage
      cases stage

end Moves

end Publisher

end Cuprum.LineStream
