import Cuprum.Effect.Program

namespace Cuprum.Teardown

/-! What a teardown says of the targets it could not reach. -/

inductive GroupProbe
  | members
  | empty
  | unsignalable
  deriving DecidableEq, Repr

inductive Signal
  | terminate
  | kill
  deriving DecidableEq, Repr

def Signal.number : Signal → Nat
  | .terminate => 15
  | .kill => 9

inductive GroupTeardownOutcome
  | unsignalable
  | settlementTimeout
  | signalRefused
  deriving DecidableEq, Repr

structure GroupTeardownReport where
  outcome : GroupTeardownOutcome
  operation : String
  pid : Option Int
  ownsGroup : Bool
  settleSeconds : Option Int := none
  signalNumber : Option Nat := none
  deriving DecidableEq, Repr

def settlementOperation : String := "teardown_settlement"

def refusalOperation (signalNumber : Nat) : String :=
  "teardown_signal_" ++ toString signalNumber

namespace GroupTeardownReport

def signalRefused (pid : Option Int) (ownsGroup : Bool) (signalNumber : Nat) :
    GroupTeardownReport where
  outcome := .signalRefused
  operation := refusalOperation signalNumber
  pid := pid
  ownsGroup := ownsGroup
  signalNumber := some signalNumber

def settlementTimeout (pid : Option Int) (settleSeconds : Int) : GroupTeardownReport where
  outcome := .settlementTimeout
  operation := settlementOperation
  pid := pid
  ownsGroup := true
  settleSeconds := some settleSeconds

def unsignalable (pid : Option Int) : GroupTeardownReport where
  outcome := .unsignalable
  operation := settlementOperation
  pid := pid
  ownsGroup := true

end GroupTeardownReport

def unsignalableReport (value : GroupProbe) (pid : Option Int) : Option GroupTeardownReport :=
  match value with
  | .unsignalable => some (.unsignalable pid)
  | .members | .empty => none

def GroupTeardownOutcome.message : GroupTeardownOutcome → String
  | .unsignalable =>
      "cuprum.process_group_unsignalable pid=%s owns_group=%s; group not " ++
        "signalled, treated as unreachable rather than settled"
  | .settlementTimeout =>
      "cuprum.process_group_settlement_timeout pid=%s owns_group=%s " ++
        "settle_s=%s; the group still holds members this run cannot reap"
  | .signalRefused =>
      "cuprum.teardown_signal_failed pid=%s signal=%s owns_group=%s error=%r; " ++
        "the target was not signalled, so a process this run believes is " ++
        "running may have outlived its teardown"

variable {Error Execution : Type}

inductive LogArgument (Error : Type)
  | pid (pid : Option Int)
  | signal (number : Option Nat)
  | ownsGroup (owns : Bool)
  | settled (seconds : Option Int)
  | error (error : Option Error)
  deriving DecidableEq, Repr

def logArgs (report : GroupTeardownReport) (error : Option Error) : List (LogArgument Error) :=
  match report.outcome with
  | .signalRefused =>
      [.pid report.pid, .signal report.signalNumber, .ownsGroup report.ownsGroup, .error error]
  | .settlementTimeout =>
      [.pid report.pid, .ownsGroup report.ownsGroup, .settled report.settleSeconds]
  | .unsignalable => [.pid report.pid, .ownsGroup report.ownsGroup]

structure LogRecord (Error : Type) where
  message : String
  arguments : List (LogArgument Error)
  deriving DecidableEq, Repr

structure EventDetails where
  pid : Option Int
  operation : String
  ownsGroup : Bool
  groupOutcome : GroupTeardownOutcome
  settleSeconds : Option Int
  deriving DecidableEq, Repr

def GroupTeardownReport.details (report : GroupTeardownReport) : EventDetails where
  pid := report.pid
  operation := report.operation
  ownsGroup := report.ownsGroup
  groupOutcome := report.outcome
  settleSeconds := report.settleSeconds

def GroupTeardownReport.record (report : GroupTeardownReport) (error : Option Error) :
    LogRecord Error where
  message := report.outcome.message
  arguments := logArgs report error

end Cuprum.Teardown
