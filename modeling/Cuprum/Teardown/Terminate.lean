import Cuprum.Arbitration.Control
import Cuprum.Teardown.Reports

namespace Cuprum.Teardown

open Effect
open Arbitration (TerminationOutcome)

variable {Error Execution : Type}

inductive SignalTarget
  | group (pid : Int)
  | child
  deriving DecidableEq, Repr

inductive SignalAnswer (Error : Type)
  | returned
  | noSuchProcess
  | refused (error : Error)
  deriving DecidableEq, Repr

/-- What a teardown does, in order: the probes, the signal calls, the waits it comes to
the end of, and the two channels of its reports. -/
inductive Deed (Error Execution : Type)
  | probed (target : SignalTarget) (answer : GroupProbe)
  | signalled (target : SignalTarget) (signal : Signal) (answer : SignalAnswer Error)
  | childExited
  | graceMet
  | graceElapsed
  | waitTimedOut
  | logged (report : GroupTeardownReport) (record : LogRecord Error)
  | emitted (execution : Execution) (details : EventDetails)
  deriving DecidableEq, Repr

/-- A teardown, which a failing wait for the child may end. -/
abbrev Step (Error Execution α : Type) := Program (List (Deed Error Execution)) Error α

def note (deed : Deed Error Execution) : Step Error Execution Unit :=
  modify (· ++ [deed])

inductive Ownership
  | all (owns : Bool)
  | each (owns : List Bool)
  deriving DecidableEq, Repr

def Ownership.ownsGroupFor (index : Nat) : Ownership → Bool
  | .all owns => owns
  | .each owns => owns.getD index false

/-- What is found when the target is asked about: the flag of the child, and the answer
to a null signal to its group. -/
structure Finding where
  isDone : Bool
  group : GroupProbe
  deriving DecidableEq, Repr

/-- What happens while the grace lasts.  The child's wait may fail with a `TimeoutError`
of its own, or with any other error. -/
inductive Moment (Error : Type)
  | polled (answer : GroupProbe)
  | exits
  | fails (error : Error)
  | timesOut
  deriving DecidableEq, Repr

/-- What the outside answers a teardown.  The grace elapses after its moments, and the
bound on the group's wait after its polls. -/
structure Answers (Error : Type) where
  first : Finding
  terminate : SignalAnswer Error := .returned
  grace : List (Moment Error) := []
  second : Finding
  kill : SignalAnswer Error := .returned
  reap : Option Error := none
  settling : List GroupProbe := []
  settleSeconds : Int := 1

/-- The process, whose group it may own, and the execution the teardown acts for. -/
structure Process (Execution : Type) where
  pid : Option Int
  owns : Ownership
  observation : Option Execution

namespace Process

variable (self : Process Execution)

def ownsGroup : Bool := self.owns.ownsGroupFor 0

def target : SignalTarget :=
  match self.ownsGroup, self.pid with
  | true, some pid => .group pid
  | true, none | false, _ => .child

/-- A failing hook is suppressed, so that the event goes out is all there is to it. -/
def emitEvent (report : GroupTeardownReport) : Step Error Execution Unit :=
  match self.observation with
  | none => pure ()
  | some execution => note (.emitted execution report.details)

def reportGroupTeardown (report : GroupTeardownReport) (error : Option Error) :
    Step Error Execution Unit := do
  note (.logged report (report.record error))
  self.emitEvent report

def reportTeardown (report : Option GroupTeardownReport) : Step Error Execution Unit :=
  match report with
  | none => pure ()
  | some report => self.reportGroupTeardown report none

def settlementOf (finding : Finding) : GroupProbe :=
  match self.target with
  | .group _ => finding.group
  | .child => if finding.isDone then .empty else .members

def membersRemainToSignal (finding : Finding) : Step Error Execution Bool := do
  let settled := self.settlementOf finding
  note (.probed self.target settled)
  self.reportTeardown (unsignalableReport settled self.pid)
  pure (settled = .members)

def signalTargetOrReport (signal : Signal) (answer : SignalAnswer Error) :
    Step Error Execution Bool := do
  note (.signalled self.target signal answer)
  match answer with
  | .returned => pure true
  | .noSuchProcess => pure false
  | .refused error =>
      self.reportGroupTeardown (.signalRefused self.pid self.ownsGroup signal.number) (some error)
      pure false

/-- The child and its group are both waited for: the poll ends at an answer other than
members, and the wait once the child has exited as well.  It comes to nothing at a
`TimeoutError`, which is the grace's end or the child's wait's own. -/
def awaitGroupTeardown (exited : Bool) (ended : Option GroupProbe) :
    List (Moment Error) → Step Error Execution (Option GroupProbe)
  | [] => do
      note .graceElapsed
      pure none
  | .polled answer :: rest =>
      match ended with
      | some _ => awaitGroupTeardown exited ended rest
      | none => do
          note (.probed self.target answer)
          match answer with
          | .members => awaitGroupTeardown exited none rest
          | .empty | .unsignalable =>
              if exited then pure (some answer) else awaitGroupTeardown exited (some answer) rest
  | .exits :: rest =>
      if exited then awaitGroupTeardown exited ended rest
      else do
        note .childExited
        match ended with
        | some answer => pure (some answer)
        | none => awaitGroupTeardown true none rest
  | .fails error :: rest =>
      if exited then awaitGroupTeardown exited ended rest else throw error
  | .timesOut :: rest =>
      if exited then awaitGroupTeardown exited ended rest
      else do
        note .waitTimedOut
        pure none

def awaitChild : List (Moment Error) → Step Error Execution Bool
  | [] => do
      note .graceElapsed
      pure false
  | .polled _ :: rest => awaitChild rest
  | .exits :: _ => do
      note .childExited
      pure true
  | .fails error :: _ => throw error
  | .timesOut :: _ => do
      note .waitTimedOut
      pure false

/-- Whether the target settled before a `TimeoutError` ended the wait for it. -/
def settlement (grace : List (Moment Error)) : Step Error Execution Bool :=
  match self.target with
  | .child => awaitChild grace
  | .group _ => do
      match ← self.awaitGroupTeardown false none grace with
      | none => pure false
      | some outcome =>
          self.reportTeardown (unsignalableReport outcome self.pid)
          pure true

def awaitGroupSettlement : List GroupProbe → Step Error Execution GroupProbe
  | [] => pure .members
  | answer :: rest => do
      note (.probed self.target answer)
      match answer with
      | .members => awaitGroupSettlement rest
      | .empty | .unsignalable => pure answer

def settleAfterEscalation (answers : Answers Error) : Step Error Execution Unit := do
  attempt answers.reap
  note .childExited
  match self.target with
  | .child => pure ()
  | .group _ => do
      match ← self.awaitGroupSettlement answers.settling with
      | .members =>
          self.reportTeardown (some (.settlementTimeout self.pid answers.settleSeconds))
      | outcome => self.reportTeardown (unsignalableReport outcome self.pid)

def escalateAfterGrace (answers : Answers Error) : Step Error Execution Bool := do
  if ← self.membersRemainToSignal answers.second then
    if ← self.signalTargetOrReport .kill answers.kill then
      self.settleAfterEscalation answers
      pure true
    else pure false
  else pure false

end Process

def noStop : TerminationOutcome where
  delivered := false
  escalated := false
  waiterCompleted := false

def terminatedInGrace : TerminationOutcome where
  delivered := true
  escalated := false
  waiterCompleted := true

def killedAfterGrace : TerminationOutcome where
  delivered := true
  escalated := true
  waiterCompleted := true

def killedAfterGraceUnwaited : TerminationOutcome where
  delivered := true
  escalated := true
  waiterCompleted := false

namespace Process

variable (self : Process Execution)

def escalateAfterGraceOutcome (answers : Answers Error) :
    Step Error Execution TerminationOutcome := do
  if ← self.escalateAfterGrace answers then pure killedAfterGrace
  else pure killedAfterGraceUnwaited

def terminateProcessWithWait (answers : Answers Error) :
    Step Error Execution TerminationOutcome := do
  if ← self.membersRemainToSignal answers.first then
    if ← self.signalTargetOrReport .terminate answers.terminate then
      if ← self.settlement answers.grace then
        note .graceMet
        pure terminatedInGrace
      else self.escalateAfterGraceOutcome answers
    else pure noStop
  else pure noStop

end Process

end Cuprum.Teardown
