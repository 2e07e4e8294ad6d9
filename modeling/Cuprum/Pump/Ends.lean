import Cuprum.Pump.Prefix

namespace Cuprum.Pump

/-- The two ends a pump moves bytes between, as the kernel keeps them: what the reader
still has and how it ends, how much the writer still takes before it answers with an
error, if it ever does, what it has been given, and whether the reader was read to its
end. -/
structure Ends where
  input : List UInt8
  ending : Option ErrorKind
  room : Option (Nat × ErrorKind)
  delivered : List UInt8
  drained : Bool
  deriving DecidableEq

namespace Ends

def finish (ends : Ends) : Ends :=
  { ends with drained := true }

/-- The writer takes bytes while it has room for them. -/
def accept (ends : Ends) (bytes : List UInt8) : Option Ends :=
  match ends.room with
  | none => some { ends with delivered := ends.delivered ++ bytes }
  | some (left, kind) =>
      if bytes.length ≤ left then
        some { ends with
          delivered := ends.delivered ++ bytes
          room := some (left - bytes.length, kind) }
      else none

/-- The ends after a call, if that is how they can answer it: a read is given what comes
next, a write is taken up to the writer's room, and an error is that of the end that has
it, once there is nothing else. -/
def serve (ends : Ends) : Event → Option Ends
  | .read _ (.ok []) =>
      if ends.input = [] ∧ ends.ending = none then some ends.finish else none
  | .read capacity (.ok bytes) =>
      if bytes <+: ends.input ∧ bytes.length ≤ capacity then
        some { ends with input := ends.input.drop bytes.length }
      else none
  | .read _ (.error .interrupted) => some ends
  | .read _ (.error kind) =>
      if ends.input = [] ∧ ends.ending = some kind then some ends.finish else none
  | .write chunk (.ok count) =>
      if 0 < count ∧ count ≤ chunk.length then ends.accept (chunk.take count) else none
  | .write _ (.error .interrupted) => some ends
  | .write _ (.error kind) => if ends.room = some (0, kind) then some ends else none

def serveAll (ends : Ends) (log : List Event) : Option Ends :=
  log.foldlM serve ends

theorem serveAll_cons {ends after : Ends} {event : Event} {log : List Event} :
    ends.serveAll (event :: log) = some after ↔
      ∃ middle, ends.serve event = some middle ∧ middle.serveAll log = some after := by
  rw [serveAll, List.foldlM_cons]
  exact Option.bind_eq_some_iff

theorem serveAll_append {ends after : Ends} {first second : List Event} :
    ends.serveAll (first ++ second) = some after ↔
      ∃ middle, ends.serveAll first = some middle ∧ middle.serveAll second = some after := by
  rw [serveAll, List.foldlM_append]
  exact Option.bind_eq_some_iff

@[simp] theorem serveAll_nil {ends after : Ends} :
    ends.serveAll [] = some after ↔ ends = after :=
  Option.some_inj

theorem serveAll_singleton {ends after : Ends} {event : Event} :
    ends.serveAll [event] = some after ↔ ends.serve event = some after := by
  simp [serveAll_cons]

def deliverable (ends : Ends) : List UInt8 :=
  match ends.room with
  | none => ends.input
  | some (left, _) => ends.input.take left

/-- The error of a writer that fails, and does not merely break, before it has taken the
whole input. -/
def failure (ends : Ends) : Option ErrorKind :=
  match ends.room with
  | none => none
  | some (left, kind) =>
      if left < ends.input.length ∧ isNonfatalWrite (.io kind) = false then some kind
      else none

/-- How a transfer between the ends comes out that has counted `total` bytes. -/
def verdict (ends : Ends) (total : Nat) : Outcome Nat :=
  match ends.failure, ends.ending with
  | some kind, _ => .failed (.io kind)
  | none, some kind => .failed (.io kind)
  | none, none => .returned total

end Ends

/-- What a pump owes its ends: the writer has all it takes, the reader is read to its end
unless the writer failed, and only that and the reader's own error are failures. -/
structure Transfers (ends after : Ends) (total : Nat) (outcome : Outcome Nat) : Prop where
  delivered : after.delivered = ends.delivered ++ ends.deliverable
  outcome : outcome = ends.verdict total
  drained : after.drained = (ends.drained || ends.failure.isNone)

namespace Ends

variable {ends after : Ends} {bytes rest : List UInt8}

theorem accept_append (ends : Ends) (first second : List UInt8) :
    ends.accept (first ++ second) = (ends.accept first).bind (·.accept second) := by
  unfold accept
  split
  next room => simp [room]
  next left kind room =>
    by_cases fits : first.length ≤ left
    · by_cases both : first.length + second.length ≤ left
      · have more : second.length ≤ left - first.length := by omega
        simp [fits, both, more, Nat.sub_sub]
      · have more : ¬ second.length ≤ left - first.length := by omega
        simp [fits, both, more]
    · have both : ¬ first.length + second.length ≤ left := by omega
      simp [fits, both]

theorem accept_nil (ends : Ends) : ends.accept [] = some ends := by
  unfold accept
  split
  next => simp
  next room => simp [← room]

/-- A writer that took the next bytes of the input has as much left to take, and as much
to fail on. -/
theorem accept_some (accepted : ends.accept bytes = some after)
    (input : ends.input = bytes ++ rest) :
    let next := { after with input := rest }
    ends.deliverable = bytes ++ next.deliverable ∧ ends.failure = next.failure ∧
      after.ending = ends.ending ∧ after.delivered = ends.delivered ++ bytes ∧
        after.drained = ends.drained := by
  unfold accept at accepted
  split at accepted
  next room =>
    cases accepted
    simp [deliverable, failure, room, input]
  next left kind room =>
    split at accepted
    next fits =>
      cases accepted
      have same : left < bytes.length + rest.length ↔ left - bytes.length < rest.length := by
        omega
      simp [deliverable, failure, room, input, List.take_append, List.take_of_length_le fits,
        same]
    next => cases accepted

theorem transfers_of_accept {total : Nat} {outcome : Outcome Nat} {last : Ends}
    (accepted : ends.accept bytes = some after) (input : ends.input = bytes ++ rest)
    (further : Transfers { after with input := rest } last total outcome) :
    Transfers ends last total outcome := by
  obtain ⟨same, fails, ending, given, drained⟩ := accept_some accepted input
  refine ⟨?_, ?_, ?_⟩
  · rw [further.delivered, same, ← List.append_assoc]
    exact congrArg (· ++ _) given
  · rw [further.outcome, verdict, verdict, fails, ← ending]
  · rw [further.drained, fails]
    exact congrArg (· || _) drained

end Ends

end Cuprum.Pump
