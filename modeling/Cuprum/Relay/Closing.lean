import Cuprum.Relay.Pumping

namespace Cuprum.Relay

open Effect

/-- Deeds of a close, with as many calls of the writer's `close`. -/
structure Closing (calls : Nat) (deeds : List Deed) : Prop where
  silent : Silent deeds
  uncompleted : completions deeds = []
  called : deeds.count .closed = calls

theorem Closing.nil : Closing 0 [] :=
  ⟨by simp [Silent], rfl, rfl⟩

theorem Closing.append {first second : Nat} {deeds rest : List Deed}
    (closing : Closing first deeds) (later : Closing second rest) :
    Closing (first + second) (deeds ++ rest) where
  silent deed mem := by
    rcases List.mem_append.mp mem with before | after
    · exact closing.silent deed before
    · exact later.silent deed after
  uncompleted := by rw [completions_append, closing.uncompleted, later.uncompleted]; rfl
  called := by rw [List.count_append, closing.called, later.called]

variable {raised : Raised → List Deed → Prop}

/-- A closing call with its handler, and what the call answered. -/
theorem leaves_suppressing {operation : CloseOperation} {suppresses : Raised → Bool}
    {call : Step Unit} {answer : Option Raised} {calls : Nat}
    (calling : recorder.Leaves call (fun _ deeds => Closing calls deeds ∧ answer = none)
      fun error deeds => Closing calls deeds ∧ answer = some error) :
    recorder.Leaves (suppressing operation suppresses call)
      (fun quiet deeds => Closing calls deeds ∧ quiet = answer.isNone ∧
        answer.all suppresses = true)
      (fun error deeds => Closing calls deeds ∧ answer = some error ∧
        suppresses error = false) := by
  refine .handle (fun error deeds => Closing calls deeds ∧ answer = some error) ?_ ?_
  · refine .bind _ calling ?_
    rintro - deeds ⟨closing, rfl⟩
    refine .returns ?_
    rw [List.append_nil]
    exact ⟨closing, rfl, rfl⟩
  · rintro error deeds ⟨closing, rfl⟩
    refine .branch (fun suppressed => ?_) fun unsuppressed => .raises ?_
    · refine .bind (fun _ more => more = [.suppressed operation error])
        (leaves_note rfl rfl) ?_
      rintro - - rfl
      refine .returns ⟨?_, rfl, suppressed⟩
      have suppressed : Closing 0 [.suppressed operation error] :=
        ⟨by simp [Silent, Deed.isRelaying, Deed.isReading], rfl, rfl⟩
      exact closing.append suppressed
    · rw [List.append_nil]
      exact ⟨closing, rfl, Bool.eq_false_iff.mpr unsuppressed⟩

theorem leaves_answering (answer : Option Raised) :
    recorder.Leaves (attempt answer) (fun _ deeds => Closing 0 deeds ∧ answer = none)
      fun error deeds => Closing 0 deeds ∧ answer = some error :=
  .attempt (fun silent => ⟨.nil, silent⟩) fun _ answers => ⟨.nil, answers⟩

variable (replies : Replies)

/-- Whether `write_eof` lets the close go on. -/
def Replies.closes : Bool :=
  replies.writeEof.all Raised.isSuppressed

/-- How often the writer's `close` is called. -/
def Replies.closings : Nat :=
  if replies.hasWriter && replies.closes then 1 else 0

/-- Whether the close raises nothing. -/
def Replies.closesQuietly : Bool :=
  !replies.hasWriter ||
    (replies.closes && replies.close.all Raised.isClosedPipe &&
      (replies.close.isSome || replies.waitClosed.join.all Raised.isSuppressed))

theorem leaves_close :
    recorder.Leaves (closeStreamWriter replies)
      (fun _ deeds => Closing replies.closings deeds ∧ replies.closesQuietly = true)
      (fun _ deeds => Closing replies.closings deeds ∧ replies.closesQuietly = false) := by
  unfold closeStreamWriter Replies.closings Replies.closesQuietly Replies.closes
  refine .branch (fun written => ?_) fun unwritten => .returns ?_
  · simp only [written, Bool.true_and, Bool.not_true, Bool.false_or]
    refine .bind _ ((leaves_suppressing (leaves_answering replies.writeEof)).mono
      (fun _ _ returns => returns) ?_) ?_
    · rintro error deeds ⟨closing, answers, unsuppressed⟩
      simp only [answers, Option.all_some, unsuppressed, Bool.false_and]
      exact ⟨closing, trivial⟩
    rintro - deeds ⟨ended, -, tolerated⟩
    simp only [tolerated, Bool.true_and, if_true]
    have calling : recorder.Leaves
        (do
          note .closed
          attempt replies.close)
        (fun _ deeds => Closing 1 deeds ∧ replies.close = none)
        (fun error deeds => Closing 1 deeds ∧ replies.close = some error) := by
      have closed : Closing 1 [.closed] :=
        ⟨by simp [Silent, Deed.isRelaying, Deed.isReading], rfl, rfl⟩
      refine .bind (fun _ deeds => deeds = [.closed]) (leaves_note rfl rfl) ?_
      rintro - - rfl
      exact (leaves_answering replies.close).mono
        (fun _ _ answered => ⟨closed.append answered.1, answered.2⟩)
        fun _ _ answered => ⟨closed.append answered.1, answered.2⟩
    refine .bind _ ((leaves_suppressing calling).mono (fun _ _ returns => returns) ?_) ?_
    · rintro error more ⟨closing, answers, unsuppressed⟩
      simp only [answers, Option.all_some, unsuppressed, Bool.false_and]
      exact ⟨ended.append closing, trivial⟩
    · rintro quiet more ⟨closing, rfl, suppressed⟩
      have called := ended.append closing
      simp only [suppressed, Bool.true_and]
      cases answers : replies.close with
      | some error =>
          refine .returns ⟨?_, rfl⟩
          rwa [List.append_nil]
      | none =>
          cases waited : replies.waitClosed with
          | none =>
              refine .returns ⟨?_, rfl⟩
              rwa [List.append_nil]
          | some answer =>
              refine .bind _ ((leaves_suppressing (leaves_answering answer)).mono
                (fun _ _ returns => returns) ?_) ?_
              · rintro error last ⟨waiting, rfl, unsuppressed⟩
                rw [← List.append_assoc]
                exact ⟨called.append waiting, unsuppressed⟩
              · rintro - last ⟨waiting, -, tolerated⟩
                refine .returns ⟨?_, tolerated⟩
                rw [List.append_nil, ← List.append_assoc]
                exact called.append waiting
  · simp only [Bool.eq_false_iff.mpr unwritten, Bool.false_and, Bool.not_false, Bool.true_or]
    exact ⟨.nil, trivial⟩

end Cuprum.Relay
