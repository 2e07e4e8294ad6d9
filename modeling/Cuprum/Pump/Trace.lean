import Cuprum.Pump.Machine

namespace Cuprum.Pump

namespace Event

def isRead : Event → Bool
  | read .. => true
  | write .. => false

def readReply : Event → Option ReadReply
  | read _ reply => some reply
  | write .. => none

def writeReply : Event → Option WriteReply
  | read .. => none
  | write _ reply => some reply

def data : Event → List UInt8
  | read _ (.ok bytes) => bytes
  | _ => []

def taken : Event → List UInt8
  | write chunk (.ok count) => chunk.take count
  | _ => []

def isInterrupted : Event → Bool
  | read _ (.error .interrupted) => true
  | write _ (.error .interrupted) => true
  | _ => false

def breaksPipe : Event → Bool
  | write _ (.error .brokenPipe) => true
  | write _ (.error .connectionReset) => true
  | _ => false

/-- Whether a call ends the run, and how: the end of the input is success, and
every error is fatal that is neither an interruption nor a broken pipe. -/
def verdict : Event → Option (Except PumpError Unit)
  | read capacity (.ok bytes) =>
      if capacity < bytes.length then some (.error (.io .invalidData))
      else if bytes.isEmpty then some (.ok ()) else none
  | write chunk (.ok count) =>
      if chunk.length < count then some (.error (.io .invalidData))
      else if count = 0 then some (.error (.io .writeZero)) else none
  | read _ (.error .interrupted) => none
  | write _ (.error .interrupted) => none
  | write _ (.error .brokenPipe) => none
  | write _ (.error .connectionReset) => none
  | read _ (.error kind) => some (.error (.io kind))
  | write _ (.error kind) => some (.error (.io kind))

/-- Whether a call may come after an earlier one. -/
def Allows (earlier later : Event) : Prop :=
  earlier.verdict = none ∧ (earlier.breaksPipe → later.isRead)

/-- A call after which the pump may read and write as before. -/
structure Passes (event : Event) : Prop where
  undecided : event.verdict = none
  unbroken : event.breaksPipe = false

theorem Passes.allows {event : Event} (passes : event.Passes) (later : Event) :
    event.Allows later :=
  ⟨passes.undecided, fun broken => by simp [passes.unbroken] at broken⟩

theorem taken_of_isRead {event : Event} (reads : event.isRead) : event.taken = [] := by
  cases event with
  | read capacity reply => rfl
  | write chunk reply => cases reads

theorem taken_prefix (chunk : List UInt8) (reply : WriteReply) :
    (write chunk reply).taken <+: chunk := by
  cases reply with
  | ok count => exact List.take_prefix count chunk
  | error kind => exact List.nil_prefix

theorem writeReply_of_isRead {event : Event} (reads : event.isRead) :
    event.writeReply = none := by
  cases event with
  | read capacity reply => rfl
  | write chunk reply => cases reads

theorem data_of_not_isRead {event : Event} (writes : event.isRead = false) :
    event.data = [] := by
  cases event with
  | read capacity reply => cases writes
  | write chunk reply => rfl

theorem readReply_of_not_isRead {event : Event} (writes : event.isRead = false) :
    event.readReply = none := by
  cases event with
  | read capacity reply => cases writes
  | write chunk reply => rfl

end Event

def received (log : List Event) : List UInt8 := log.flatMap Event.data

def accepted (log : List Event) : List UInt8 := log.flatMap Event.taken

@[simp] theorem received_nil : received [] = [] := rfl

@[simp] theorem accepted_nil : accepted [] = [] := rfl

@[simp] theorem received_cons (event : Event) (log : List Event) :
    received (event :: log) = event.data ++ received log := rfl

@[simp] theorem accepted_cons (event : Event) (log : List Event) :
    accepted (event :: log) = event.taken ++ accepted log := rfl

@[simp] theorem received_append (first second : List Event) :
    received (first ++ second) = received first ++ received second := by
  apply List.flatMap_append

@[simp] theorem accepted_append (first second : List Event) :
    accepted (first ++ second) = accepted first ++ accepted second := by
  apply List.flatMap_append

def OnlyReads (log : List Event) : Prop := ∀ event ∈ log, event.isRead = true

def OnlyWrites (log : List Event) : Prop := ∀ event ∈ log, event.isRead = false

def Passing (log : List Event) : Prop := ∀ event ∈ log, event.Passes

theorem Passing.nil : Passing [] := by
  simp [Passing]

theorem OnlyWrites.nil : OnlyWrites [] := by
  simp [OnlyWrites]

theorem OnlyReads.accepted {log : List Event} (reads : OnlyReads log) :
    accepted log = [] := by
  apply List.flatMap_eq_nil_iff.mpr
  exact fun event member => Event.taken_of_isRead (reads event member)

theorem OnlyReads.writeReplies {log : List Event} (reads : OnlyReads log) :
    log.filterMap Event.writeReply = [] := by
  apply List.filterMap_eq_nil_iff.mpr
  exact fun event member => Event.writeReply_of_isRead (reads event member)

theorem OnlyWrites.received {log : List Event} (writes : OnlyWrites log) :
    received log = [] := by
  apply List.flatMap_eq_nil_iff.mpr
  exact fun event member => Event.data_of_not_isRead (writes event member)

theorem OnlyWrites.readReplies {log : List Event} (writes : OnlyWrites log) :
    log.filterMap Event.readReply = [] := by
  apply List.filterMap_eq_nil_iff.mpr
  exact fun event member => Event.readReply_of_not_isRead (writes event member)

/-- How the last call of a log ends the run, when it does. -/
def conclusion (log : List Event) : Option (Except PumpError Unit) :=
  log.getLast?.bind Event.verdict

@[simp] theorem conclusion_singleton (event : Event) :
    conclusion [event] = event.verdict := rfl

theorem Passing.conclusion {log : List Event} (passing : Passing log) :
    conclusion log = none := by
  apply Option.bind_eq_none_iff.mpr
  exact fun event last => (passing event (List.mem_of_getLast? last)).undecided

theorem Passing.conclusion_append {first : List Event} (passing : Passing first)
    (second : List Event) :
    Pump.conclusion (first ++ second) = Pump.conclusion second := by
  unfold Pump.conclusion
  rw [List.getLast?_append]
  cases ending : second.getLast? with
  | some last => rfl
  | none => exact passing.conclusion

theorem Passing.pairwise {first second : List Event} (passing : Passing first)
    (ordered : second.Pairwise Event.Allows) :
    (first ++ second).Pairwise Event.Allows := by
  induction first with
  | nil => exact ordered
  | cons event first induction =>
      refine .cons ?_ (induction fun other member => passing other (.tail _ member))
      exact fun later _ => (passing event (.head _)).allows later

theorem Passing.append {first second : List Event} (passing : Passing first)
    (next : Passing second) : Passing (first ++ second) := by
  intro event member
  cases List.mem_append.mp member with
  | inl member => exact passing event member
  | inr member => exact next event member

theorem Passing.cons {event : Event} {log : List Event} (passes : event.Passes)
    (passing : Passing log) : Passing (event :: log) := by
  intro other member
  cases member with
  | head => exact passes
  | tail _ member => exact passing other member

/-- What asking the reader for one chunk comes to. -/
structure ReadsChunk (capacity : Nat) (replies : List ReadReply)
    (stretch : Stretch ReadReply (List UInt8)) : Prop where
  consumed : stretch.log.filterMap Event.readReply ++ stretch.rest = replies
  onlyReads : OnlyReads stretch.log
  ordered : stretch.log.Pairwise Event.Allows
  chunk : ∀ bytes, stretch.outcome = .returned bytes → bytes ≠ [] →
    bytes.length ≤ capacity ∧ received stretch.log = bytes ∧ Passing stretch.log
  ended : stretch.outcome = .returned [] →
    conclusion stretch.log = some (.ok ()) ∧ received stretch.log = []
  failed : ∀ error, stretch.outcome = .failed error →
    conclusion stretch.log = some (.error error)
  waiting : stretch.outcome = .waiting → stretch.rest = [] ∧ Passing stretch.log

theorem ReadsChunk.again {capacity : Nat} {replies : List ReadReply}
    {stretch : Stretch ReadReply (List UInt8)}
    (reads : ReadsChunk capacity replies stretch) :
    ReadsChunk capacity (.error .interrupted :: replies)
      (stretch.after (.read capacity (.error .interrupted))) := by
  have passes : (Event.read capacity (.error .interrupted)).Passes := ⟨rfl, rfl⟩
  have single : Passing [Event.read capacity (.error .interrupted)] :=
    .cons passes .nil
  refine
    { consumed := congrArg (List.cons _) reads.consumed
      onlyReads := ?_
      ordered := single.pairwise reads.ordered
      chunk := fun bytes returned nonempty => ?_
      ended := fun returned =>
        ⟨(single.conclusion_append _).trans (reads.ended returned).1, (reads.ended returned).2⟩
      failed := fun error failed =>
        (single.conclusion_append _).trans (reads.failed error failed)
      waiting := fun waits =>
        ⟨(reads.waiting waits).1, .cons passes (reads.waiting waits).2⟩ }
  · intro event member
    cases member with
    | head => rfl
    | tail _ member => exact reads.onlyReads event member
  · obtain ⟨fits, exactly, passing⟩ := reads.chunk bytes returned nonempty
    exact ⟨fits, exactly, .cons passes passing⟩

theorem syscallResult_ok {capacity count valid : Nat}
    (result : syscallResult (.ok count) capacity = .ok valid) :
    valid = count ∧ count ≤ capacity := by
  unfold syscallResult checkedCount at result
  by_cases fits : count ≤ capacity
  · simp only [if_pos fits, Except.ok.injEq] at result
    exact ⟨result.symm, fits⟩
  · simp [if_neg fits] at result

theorem syscallResult_error {capacity count : Nat} {kind : ErrorKind}
    (result : syscallResult (.ok count) capacity = .error kind) :
    kind = .invalidData ∧ capacity < count := by
  unfold syscallResult checkedCount at result
  by_cases fits : count ≤ capacity
  · simp [if_pos fits] at result
  · simp only [if_neg fits, Except.error.injEq] at result
    exact ⟨result.symm, by omega⟩

theorem readRawFdWith_readsChunk (capacity : Nat) (replies : List ReadReply) :
    ReadsChunk capacity replies (readRawFdWith capacity replies) := by
  induction replies using readRawFdWith.induct capacity with
  | case1 =>
      refine ⟨rfl, ?_, .nil, ?_, ?_, ?_, fun _ => ⟨rfl, ?_⟩⟩ <;>
        simp [readRawFdWith, OnlyReads, Passing]
  | case2 data replies valid fits =>
      obtain ⟨rfl, within⟩ := syscallResult_ok fits
      have small : ¬ capacity < data.length := by omega
      simp only [readRawFdWith, fits]
      refine ⟨rfl, ?_, List.pairwise_singleton _ _, ?_, ?_, ?_, ?_⟩
      · simp [OnlyReads, Event.isRead]
      · rintro bytes ⟨rfl⟩ nonempty
        refine ⟨within, by simp [Event.data], .cons ⟨?_, rfl⟩ (by simp [Passing])⟩
        simp [Event.verdict, small, nonempty]
      · rintro ⟨rfl⟩
        simp [Event.verdict, Event.data]
      · intro error wrong
        cases wrong
      · intro wrong
        cases wrong
  | case3 data replies kind invalid =>
      obtain ⟨rfl, large⟩ := syscallResult_error invalid
      simp only [readRawFdWith, invalid]
      refine ⟨rfl, ?_, List.pairwise_singleton _ _, ?_, ?_, ?_, ?_⟩
      · simp [OnlyReads, Event.isRead]
      · intro bytes wrong
        cases wrong
      · intro wrong
        cases wrong
      · rintro error ⟨rfl⟩
        simp [Event.verdict, large]
      · intro wrong
        cases wrong
  | case4 replies induction => exact induction.again
  | case5 kind replies persistent =>
      simp only [readRawFdWith]
      refine ⟨rfl, ?_, List.pairwise_singleton _ _, ?_, ?_, ?_, ?_⟩
      · simp [OnlyReads, Event.isRead]
      · intro bytes wrong
        cases wrong
      · intro wrong
        cases wrong
      · rintro error ⟨rfl⟩
        cases kind <;> first | rfl | exact absurd rfl persistent
      · intro wrong
        cases wrong

/-- What writing a chunk comes to, `already` of it being written before. -/
structure WritesChunk (chunk : List UInt8) (already : Nat) (replies : List WriteReply)
    (stretch : Stretch WriteReply WriteOutcome) : Prop where
  consumed : stretch.log.filterMap Event.writeReply ++ stretch.rest = replies
  onlyWrites : OnlyWrites stretch.log
  ordered : stretch.log.Pairwise Event.Allows
  taken : accepted stretch.log <+: chunk
  complete : ∀ bytes, stretch.outcome = .returned (.complete bytes) →
    accepted stretch.log = chunk ∧ bytes = already + chunk.length ∧
      Passing stretch.log
  short : ∀ bytes, stretch.outcome = .returned (.nonFatalShortWrite bytes) →
    bytes = already + (accepted stretch.log).length ∧
      (∀ event ∈ stretch.log, event.verdict = none) ∧
      ∃ event ∈ stretch.log, event.breaksPipe = true
  failed : ∀ error, stretch.outcome = .failed error →
    conclusion stretch.log = some (.error error)
  waiting : stretch.outcome = .waiting → stretch.rest = [] ∧ Passing stretch.log

theorem WritesChunk.again {chunk tail : List UInt8} {already newTotal : Nat}
    {reply : WriteReply} {replies : List WriteReply}
    {stretch : Stretch WriteReply WriteOutcome}
    (writes : WritesChunk tail newTotal replies stretch)
    (passes : (Event.write chunk reply).Passes)
    (split : (Event.write chunk reply).taken ++ tail = chunk)
    (counted : newTotal = already + (Event.write chunk reply).taken.length) :
    WritesChunk chunk already (reply :: replies)
      (stretch.after (.write chunk reply)) := by
  have single : Passing [Event.write chunk reply] :=
    .cons passes .nil
  have whole := congrArg List.length split
  rw [List.length_append] at whole
  refine
    { consumed := congrArg (List.cons _) writes.consumed
      onlyWrites := ?_
      ordered := single.pairwise writes.ordered
      taken := ?_
      complete := fun bytes returned => ?_
      short := fun bytes returned => ?_
      failed := fun error failed =>
        (single.conclusion_append _).trans (writes.failed error failed)
      waiting := fun waits =>
        ⟨(writes.waiting waits).1, .cons passes (writes.waiting waits).2⟩ }
  · intro event member
    cases member with
    | head => rfl
    | tail _ member => exact writes.onlyWrites event member
  · rw [Stretch.after_log, accepted_cons]
    conv => rhs; rw [← split]
    exact (List.prefix_append_right_inj _).mpr writes.taken
  · obtain ⟨exactly, total, passing⟩ := writes.complete bytes returned
    refine ⟨?_, by omega, .cons passes passing⟩
    rw [Stretch.after_log, accepted_cons, exactly, split]
  · obtain ⟨total, undecided, broken, member, breaks⟩ := writes.short bytes returned
    refine ⟨?_, fun event member => ?_, broken, .tail _ member, breaks⟩
    · rw [Stretch.after_log, accepted_cons, List.length_append]
      omega
    · cases member with
      | head => exact passes.undecided
      | tail _ member => exact undecided event member

/-- A write whose error, or whose count, ends the run. -/
theorem WritesChunk.fails {chunk : List UInt8} {already : Nat} {reply : WriteReply}
    {replies : List WriteReply} {error : PumpError}
    (decides : (Event.write chunk reply).verdict = some (.error error)) :
    WritesChunk chunk already (reply :: replies)
      ⟨.failed error, [.write chunk reply], replies⟩ where
  consumed := rfl
  onlyWrites := by simp [OnlyWrites, Event.isRead]
  ordered := List.pairwise_singleton _ _
  taken := by
    rw [accepted_cons, accepted_nil, List.append_nil]
    exact Event.taken_prefix chunk reply
  complete := nofun
  short := nofun
  failed := by
    rintro other ⟨rfl⟩
    exact decides
  waiting := nofun

/-- A write that finds the pipe broken. -/
theorem WritesChunk.breaks {chunk : List UInt8} {already : Nat} {kind : ErrorKind}
    {replies : List WriteReply}
    (broken : (Event.write chunk (.error kind)).breaksPipe = true)
    (undecided : (Event.write chunk (.error kind)).verdict = none) :
    WritesChunk chunk already (.error kind :: replies)
      ⟨.returned (.nonFatalShortWrite already), [.write chunk (.error kind)], replies⟩ where
  consumed := rfl
  onlyWrites := by simp [OnlyWrites, Event.isRead]
  ordered := List.pairwise_singleton _ _
  taken := List.nil_prefix
  complete := nofun
  short := by
    rintro bytes ⟨rfl⟩
    refine ⟨rfl, fun event member => ?_, _, .head _, broken⟩
    rw [List.mem_singleton.mp member]
    exact undecided
  failed := nofun
  waiting := nofun

theorem WritesChunk.nothing (already : Nat) (replies : List WriteReply) :
    WritesChunk [] already replies ⟨.returned (.complete already), [], replies⟩ := by
  refine ⟨rfl, ?_, .nil, List.nil_prefix, ?_, ?_, ?_, ?_⟩
  · exact .nil
  · rintro bytes ⟨rfl⟩
    exact ⟨rfl, rfl, .nil⟩
  · intro bytes wrong
    cases wrong
  · intro error wrong
    cases wrong
  · intro wrong
    cases wrong

theorem recordWriteProgress_eq {chunk : List UInt8} {written already : Nat}
    (fits : written ≤ chunk.length) (bounded : already + chunk.length ≤ u64Max) :
    recordWriteProgress chunk written already =
      .ok (chunk.drop written, already + written) := by
  have possible : ¬ (chunk.length < written ∨ u64Max - already < written) := by omega
  simp [recordWriteProgress, checkedProgress, fits, possible]

theorem writeAllUnixWith_writesChunk (chunk : List UInt8) (already : Nat)
    (replies : List WriteReply) (bounded : already + chunk.length ≤ u64Max) :
    WritesChunk chunk already replies (writeAllUnixWith chunk already replies) := by
  induction chunk, already, replies using writeAllUnixWith.induct with
  | case1 chunk already empty =>
      obtain rfl := List.isEmpty_iff.mp empty
      exact .nothing already []
  | case2 chunk already nonempty =>
      simp only [writeAllUnixWith, if_neg nonempty]
      refine ⟨rfl, ?_, .nil, List.nil_prefix, ?_, ?_, ?_, fun _ => ⟨rfl, ?_⟩⟩
      · exact .nil
      · intro bytes wrong
        cases wrong
      · intro bytes wrong
        cases wrong
      · intro error wrong
        cases wrong
      · exact .nil
  | case3 chunk already reply replies empty =>
      obtain rfl := List.isEmpty_iff.mp empty
      exact .nothing already (reply :: replies)
  | case4 chunk already reply replies nonempty written valid positive tail newTotal
      progress induction =>
      cases reply with
      | error kind => simp [syscallResult] at valid
      | ok count =>
          obtain ⟨rfl, fits⟩ := syscallResult_ok valid
          rw [recordWriteProgress_eq fits bounded] at progress
          obtain ⟨rfl, rfl⟩ := Prod.mk.inj (Except.ok.inj progress)
          have left : already + written + (chunk.drop written).length ≤ u64Max := by
            rw [List.length_drop]
            omega
          simp only [writeAllUnixWith, if_neg nonempty, valid, if_pos positive,
            recordWriteProgress_eq fits bounded]
          refine (induction left).again ⟨?_, rfl⟩ (List.take_append_drop _ _) ?_
          · have large : ¬ chunk.length < written := by omega
            have some : written ≠ 0 := by omega
            simp [Event.verdict, large, some]
          · simp [Event.taken, fits]
  | case5 chunk already reply replies nonempty written valid positive error progress =>
      cases reply with
      | error kind => simp [syscallResult] at valid
      | ok count =>
          obtain ⟨rfl, fits⟩ := syscallResult_ok valid
          rw [recordWriteProgress_eq fits bounded] at progress
          cases progress
  | case6 chunk already reply replies nonempty written valid zero =>
      cases reply with
      | error kind => simp [syscallResult] at valid
      | ok count =>
          obtain ⟨rfl, fits⟩ := syscallResult_ok valid
          obtain rfl : written = 0 := by omega
          simp only [writeAllUnixWith, if_neg nonempty, valid, if_neg zero]
          exact .fails (by simp [Event.verdict])
  | case7 chunk already reply replies nonempty interrupted induction =>
      simp only [writeAllUnixWith, if_neg nonempty, interrupted]
      cases reply with
      | ok count => cases (syscallResult_error interrupted).1
      | error kind =>
          obtain rfl : kind = .interrupted := Except.error.inj interrupted
          exact (induction bounded).again ⟨rfl, rfl⟩ rfl rfl
  | case8 chunk already reply replies nonempty kind persistent invalid =>
      simp only [writeAllUnixWith, if_neg nonempty, invalid]
      cases reply with
      | ok count =>
          obtain ⟨rfl, large⟩ := syscallResult_error invalid
          exact .fails (by simp [Event.verdict, large])
      | error other =>
          obtain rfl : other = kind := Except.error.inj invalid
          cases other with
          | interrupted => exact absurd rfl persistent
          | brokenPipe | connectionReset => exact .breaks rfl rfl
          | writeZero | invalidData | other code => exact .fails rfl

end Cuprum.Pump
