namespace Cuprum.ExitWait

/-- What a step of a reader raises, as the handlers of `_drain` tell it apart. -/
inductive Raised
  | unicodeEncode
  | brokenPipe
  | cancelled
  | other
  deriving DecidableEq

/-- What is done with one chunk: `_deliver_chunk` for a stream that is consumed,
`_relay_chunks` for a stdout that is pumped into the next stage. -/
inductive FanOut
  | capture
  | echo
  | lines
  | forward
  deriving DecidableEq

inductive PipeUse
  | consumed (captures echoes observes bestEffort : Bool)
  | pumped
  deriving DecidableEq

def PipeUse.fanOut : PipeUse → List FanOut
  | consumed captures echoes observes _ =>
      (if captures then [.capture] else []) ++ (if echoes then [.echo] else []) ++
        (if observes then [.lines] else [])
  | pumped => [.forward]

/-- `BrokenPipePolicy.BEST_EFFORT`. -/
def PipeUse.isBestEffort : PipeUse → Bool
  | consumed _ _ _ bestEffort => bestEffort
  | pumped => false

inductive Stage
  | reading
  | handling (step : FanOut) (rest : List FanOut)
  | draining
  | finishing
  | ended (eof : Bool)
  deriving DecidableEq

structure Reader where
  stage : Stage := .reading
  echoDisabled : Bool := false
  deriving DecidableEq

namespace Stage

def handleAll : List FanOut → Stage
  | [] => reading
  | step :: rest => handling step rest

/-- The pipe has a reader, which may be parked in a step. -/
def isRunning : Stage → Bool
  | reading | handling _ _ | draining => true
  | finishing | ended _ => false

def hasReachedEof : Stage → Bool
  | finishing | ended true => true
  | _ => false

end Stage

/-- The failures after which the reader goes on: an echo that is disabled is not
written again, and a pump whose writer has closed drains what still comes. -/
def tolerates (use : PipeUse) (echoDisabled : Bool) : FanOut → Option Raised → Bool
  | _, none => true
  | .echo, some .unicodeEncode => true
  | .echo, some .brokenPipe => echoDisabled || use.isBestEffort
  | .echo, some _ => echoDisabled
  | .forward, some .brokenPipe => true
  | _, some _ => false

def Reader.take (reader : Reader) (use : PipeUse) : Option Reader :=
  match reader.stage with
  | .reading => some { reader with stage := .handleAll use.fanOut }
  | .draining => some reader
  | _ => none

def Reader.handle (reader : Reader) (use : PipeUse) (raised : Option Raised) : Option Reader :=
  match reader.stage with
  | .handling step rest =>
      if tolerates use reader.echoDisabled step raised then
        match step, raised with
        | .echo, some _ => some { stage := .handleAll rest, echoDisabled := true }
        | .forward, some _ => some { reader with stage := .draining }
        | _, _ => some { reader with stage := .handleAll rest }
      else
        some { reader with stage := .ended false }
  | _ => none

def Reader.reachEof (reader : Reader) : Option Reader :=
  match reader.stage with
  | .reading | .draining => some { reader with stage := .finishing }
  | _ => none

/-- After EOF the capture is finalized and the last line published. -/
def Reader.finish (reader : Reader) : Option Reader :=
  if reader.stage = .finishing then some { reader with stage := .ended true } else none

/-- A read that is cancelled stops the reader short. -/
def Reader.stop (reader : Reader) : Option Reader :=
  match reader.stage with
  | .reading | .draining => some { reader with stage := .ended false }
  | _ => none

/-- `_POST_CLOSE_DRAIN_TIMEOUT_S` has passed. -/
def Reader.expire (reader : Reader) : Option Reader :=
  if reader.stage = .draining then some { reader with stage := .ended false } else none

def Reader.Attends (reader : Reader) : Prop :=
  reader.stage.isRunning = true ∨ reader.stage.hasReachedEof = true

variable {reader after : Reader} {use : PipeUse}

theorem handleAll_isRunning (steps : List FanOut) :
    (Stage.handleAll steps).isRunning = true := by
  cases steps <;> rfl

theorem Reader.not_attends (reader : Reader) :
    ¬ Attends { reader with stage := .ended false } := by
  simp [Attends, Stage.isRunning, Stage.hasReachedEof]

theorem Reader.take_attends (took : reader.take use = some after) : after.Attends := by
  unfold Reader.take at took
  split at took
  · cases took
    exact Or.inl (handleAll_isRunning _)
  · rename_i draining
    cases took
    exact Or.inl (by rw [draining]; rfl)
  · cases took

/-- The step decides whether the reader goes on. -/
theorem Reader.handle_attends {step : FanOut} {rest : List FanOut} {raised : Option Raised}
    (stage : reader.stage = .handling step rest)
    (handled : reader.handle use raised = some after) :
    tolerates use reader.echoDisabled step raised = true ↔ after.Attends := by
  simp only [Reader.handle, stage] at handled
  split at handled
  · rename_i tolerated
    simp only [tolerated, true_iff]
    split at handled <;> cases handled
    · exact Or.inl (handleAll_isRunning _)
    · exact Or.inl rfl
    · exact Or.inl (handleAll_isRunning _)
  · rename_i fatal
    cases handled
    exact iff_of_false fatal (Reader.not_attends reader)

theorem Reader.reachEof_attends (reached : reader.reachEof = some after) :
    after.Attends := by
  unfold Reader.reachEof at reached
  split at reached <;> cases reached
  all_goals exact Or.inr rfl

theorem Reader.finish_attends (finished : reader.finish = some after) : after.Attends := by
  obtain ⟨_, finished⟩ := Option.ite_none_right_eq_some.mp finished
  cases finished
  exact Or.inr rfl

theorem Reader.stop_abandons (stopped : reader.stop = some after) : ¬ after.Attends := by
  unfold Reader.stop at stopped
  split at stopped <;> cases stopped
  all_goals exact Reader.not_attends reader

theorem Reader.expire_abandons (expired : reader.expire = some after) :
    ¬ after.Attends := by
  obtain ⟨_, expired⟩ := Option.ite_none_right_eq_some.mp expired
  cases expired
  exact Reader.not_attends reader

end Cuprum.ExitWait
