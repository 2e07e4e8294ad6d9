import Cuprum.Teardown.Protocol

namespace Cuprum.Teardown

open Transition Effect
open Arbitration (TerminationOutcome)

variable {Error Execution : Type}

/-! What a teardown owes a report, what it files, and what it sends on. -/

abbrev Filing (Error : Type) := GroupTeardownReport × LogRecord Error

namespace Deed

/-- A refused call and an unsignalable answer each owe a report. -/
def owes (process : Process Execution) : Deed Error Execution → Option (Filing Error)
  | .probed _ .unsignalable =>
      let report := GroupTeardownReport.unsignalable process.pid
      some (report, report.record none)
  | .signalled _ signal (.refused error) =>
      let report := GroupTeardownReport.signalRefused process.pid process.ownsGroup signal.number
      some (report, report.record (some error))
  | _ => none

def files : Deed Error Execution → Option (Filing Error)
  | .logged report record =>
      match report.outcome with
      | .unsignalable | .signalRefused => some (report, record)
      | .settlementTimeout => none
  | _ => none

def logs : Deed Error Execution → Option GroupTeardownReport
  | .logged report _ => some report
  | _ => none

def emits : Deed Error Execution → Option (Execution × EventDetails)
  | .emitted execution details => some (execution, details)
  | _ => none

end Deed

variable (process : Process Execution)

def owed (deeds : List (Deed Error Execution)) : List (Filing Error) :=
  deeds.filterMap (Deed.owes process)

def filed (deeds : List (Deed Error Execution)) : List (Filing Error) :=
  deeds.filterMap Deed.files

/-- The events that go with these reports, to the target's own execution. -/
def Process.echoes (reports : List GroupTeardownReport) : List (Execution × EventDetails) :=
  match process.observation with
  | none => []
  | some execution => reports.map fun report => (execution, report.details)

def Echoed (deeds : List (Deed Error Execution)) : Prop :=
  deeds.filterMap Deed.emits = process.echoes (deeds.filterMap Deed.logs)

/-- Where a teardown stands, with the reports it still owes, and whether it has dropped
one. -/
structure Stands (stage : Stage) (dropped : Bool) (pending : List (Filing Error))
    (deeds : List (Deed Error Execution)) : Prop where
  reached : (protocol Error Execution process.target).exec .probing deeds = some stage
  tally : (owed process deeds).length =
    (filed deeds).length + pending.length + dropped.toNat
  filed : dropped = false → owed process deeds = filed deeds ++ pending
  echoed : Echoed process deeds

namespace Stands

variable {process}
variable {stage after : Stage} {dropped : Bool} {pending : List (Filing Error)}
  {deeds : List (Deed Error Execution)}

theorem initial : Stands process .probing false [] ([] : List (Deed Error Execution)) :=
  ⟨rfl, rfl, fun _ => rfl, by unfold Echoed Process.echoes; cases process.observation <;> rfl⟩

theorem exec_concat {target : SignalTarget}
    (reached : (protocol Error Execution target).exec .probing deeds = some stage)
    {deed : Deed Error Execution} (step : stage.next target deed = some after) :
    (protocol Error Execution target).exec .probing (deeds ++ [deed]) = some after := by
  rw [System.exec_append, reached, Option.bind_some, System.exec_cons]
  change ((stage.next target deed).bind _) = _
  rw [step]
  rfl

theorem owed_silent {deed : Deed Error Execution} (silent : deed.owes process = none) :
    owed process (deeds ++ [deed]) = owed process deeds := by
  unfold owed
  simp [silent]

theorem filed_silent {deed : Deed Error Execution} (silent : deed.files = none) :
    Teardown.filed (deeds ++ [deed]) = Teardown.filed deeds := by
  unfold Teardown.filed
  simp [silent]

/-- A probe, a call, or what a wait comes to. -/
theorem act (stands : Stands process stage dropped pending deeds) {deed : Deed Error Execution}
    (step : stage.next process.target deed = some after) (unlogged : deed.logs = none)
    (unemitted : deed.emits = none) :
    Stands process after dropped (pending ++ (deed.owes process).toList) (deeds ++ [deed]) := by
  have unfiled : deed.files = none := by
    cases deed <;> first | rfl | cases unlogged
  have owes : owed process (deeds ++ [deed]) = owed process deeds ++ (deed.owes process).toList := by
    unfold owed
    rw [List.filterMap_append]
    cases owing : deed.owes process <;> simp [owing]
  have files : Teardown.filed (deeds ++ [deed]) = Teardown.filed deeds := filed_silent unfiled
  refine ⟨exec_concat stands.reached step, ?_, ?_, ?_⟩
  · rw [owes, files, List.length_append, List.length_append, stands.tally]
    omega
  · intro kept
    rw [owes, files, stands.filed kept, List.append_assoc]
  · unfold Echoed
    simp only [List.filterMap_append, List.filterMap_cons, unlogged, unemitted, List.filterMap_nil,
      List.append_nil]
    exact stands.echoed

theorem note (stands : Stands process stage dropped pending deeds) {deed : Deed Error Execution}
    (step : stage.next process.target deed = some after) (unlogged : deed.logs = none)
    (unemitted : deed.emits = none)
    {raised : Error → List (Deed Error Execution) → Prop} :
    Ends (note deed) (fun _ => Stands process after dropped (pending ++ (deed.owes process).toList))
      raised deeds :=
  Ends.updates (stands.act step unlogged unemitted)

theorem drop {filing : Filing Error} (stands : Stands process stage false [filing] deeds) :
    Stands process stage true [] deeds where
  reached := stands.reached
  tally := stands.tally
  filed := fun kept => by cases kept
  echoed := stands.echoed

theorem report (stands : Stands process stage dropped pending deeds)
    (told : stage.isKilled = false)
    (report : GroupTeardownReport) (error : Option Error)
    (due : pending = (Deed.logged report (report.record error) :
      Deed Error Execution).files.toList)
    {raised : Error → List (Deed Error Execution) → Prop} :
    Ends (process.reportGroupTeardown report error) (fun _ => Stands process stage dropped [])
      raised deeds := by
  have logged : stage.next process.target
      (Deed.logged report (report.record error) : Deed Error Execution) = some stage := by
    cases stage <;> first | rfl | cases told
  have emitted (execution : Execution) : stage.next process.target
      (Deed.emitted execution report.details : Deed Error Execution) = some stage := by
    cases stage <;> first | rfl | cases told
  unfold Process.reportGroupTeardown Process.emitEvent
  apply Ends.bind
  apply Ends.updates
  have echoed := stands.echoed
  have files : Teardown.filed (deeds ++ [.logged report (report.record error)]) =
      Teardown.filed deeds ++ pending := by
    unfold Teardown.filed
    rw [due, List.filterMap_append]
    cases files : (Deed.logged report (report.record error) : Deed Error Execution).files <;>
      simp [files]
  have owes : owed process (deeds ++ [.logged report (report.record error)]) =
      owed process deeds := owed_silent rfl
  have settled : (owed process deeds).length =
      (Teardown.filed deeds ++ pending).length + dropped.toNat := by
    rw [List.length_append]
    exact stands.tally
  cases observation : process.observation with
  | none =>
      refine Ends.returns ⟨exec_concat stands.reached logged, ?_, ?_, ?_⟩
      · rw [owes, files]
        exact settled
      · intro kept
        rw [owes, files, stands.filed kept, List.append_nil]
      · simp only [Echoed, Process.echoes, observation, List.filterMap_append,
          List.append_eq_nil_iff] at echoed ⊢
        exact ⟨echoed, rfl⟩
  | some execution =>
      refine Ends.updates ⟨exec_concat (exec_concat stands.reached logged) (emitted execution),
        ?_, ?_, ?_⟩
      · rw [owed_silent rfl, filed_silent rfl, owes, files]
        exact settled
      · intro kept
        rw [owed_silent rfl, filed_silent rfl, owes, files, stands.filed kept, List.append_nil]
      · simp only [Echoed, Process.echoes, observation] at echoed ⊢
        simp only [List.filterMap_append, echoed, List.map_append, List.append_assoc]
        rfl

end Stands

end Cuprum.Teardown
