import Cuprum.BoundedEcho.Drain
import Mathlib.Data.Nat.Find

namespace Cuprum.BoundedEcho

open Codec Text Echo Iteration

section Accounting

variable (settings : LineSettings) (maxLineBytes : Nat) (content ending : List UInt8)

/-- The bytes of a line, its ending included, left out beside the marker for a count. -/
def leftOutOf (count : Nat) : Nat :=
  let limiter := fedLimiter maxLineBytes content false
  leftOut limiter limiter.line (finalizationOf limiter ending) settings.hushed count

/-- The prefix of a line that fits beside the marker for a count. -/
def prefixBeside (count : Nat) : List UInt8 :=
  let limiter := fedLimiter maxLineBytes content false
  (prefixFor limiter limiter.line (finalizationOf limiter ending) settings.hushed count).1

end Accounting

/-! The text of a marker is shown as it is. -/

section Lines

variable {settings : LineSettings} {maxLineBytes : Nat} {content ending : List UInt8}

variable (settings maxLineBytes content ending) in
/-- A line over its bound, cut beside the marker for a count. -/
structure CutAt (count : Nat) (finished : FinishedLine) : Prop where
  dropped : finished.droppedBytes = leftOutOf settings maxLineBytes content ending count
  /-- An ending is echoed whole or, over the bound, left out whole. -/
  ended : finished.ending = ending ∧ ending.length ≤ maxLineBytes ∧
      finished.droppedBytes = content.length -
        (prefixBeside settings maxLineBytes content ending count).length ∨
    finished.ending = [] ∧ maxLineBytes < ending.length ∧
      finished.droppedBytes = content.length -
        (prefixBeside settings maxLineBytes content ending count).length + ending.length
  marked : finished.marker = markerFor settings.hushed finished.droppedBytes
    (maxLineBytes - finished.encoded.length - finished.ending.length)
  longest : LongestPrefix settings (content.take maxLineBytes)
    (maxLineBytes - finished.ending.length - (markerOf settings.codec count).length)
    (prefixBeside settings maxLineBytes content ending count) finished.encoded

namespace CutAt

variable {count : Nat} {finished : FinishedLine}

theorem isPrefix (cut : CutAt settings maxLineBytes content ending count finished) :
    prefixBeside settings maxLineBytes content ending count <+: content :=
  cut.longest.isPrefix.trans (List.take_prefix _ _)

end CutAt

end Lines

/-! The truncations an echo reports. -/

def truncations (events : List EchoEvent) : List EchoEvent :=
  events.filter fun event => event.errorCategory == .truncated

def EchoEntry.truncation (entry : EchoEntry) : EchoEvent :=
  ⟨.truncated, some entry.line.droppedBytes⟩

section Events

variable {config : EchoDrain}

/-- The reported entries and the truncations emitted are the same in order. -/
def DrainState.Announced (state : DrainState config) : Prop :=
  truncations state.events = (state.entries.filter EchoEntry.reported).map
    EchoEntry.truncation

@[simp] theorem truncations_concat (events : List EchoEvent) (event : EchoEvent) :
    truncations (events ++ [event]) =
      truncations events ++ if event.errorCategory = .truncated then [event] else [] := by
  rw [truncations, List.filter_append, truncations]
  by_cases truncated : event.errorCategory = .truncated
  · simp [truncated]
  · simp [truncated]

theorem settleWrite_truncations (state : DrainState config) (reply : WriteReply) :
    truncations (settleWrite state reply).2.events = truncations state.events := by
  cases reply with
  | saturated dropped =>
      simp only [settleWrite]
      split
      next => rfl
      next => simp [recordDroppedDelivery]
  | unicodeEncodeError => simp [settleWrite, disableEcho]
  | brokenPipeError =>
      simp only [settleWrite]
      split
      next => simp [disableEcho]
      next => rfl
  | accepted => rfl
  | undelivered => rfl
  | raised => rfl

theorem DrainState.Announced.settleWrite {state : DrainState config}
    (announced : state.Announced) (reply : WriteReply) :
    (settleWrite state reply).2.Announced := by
  unfold Announced
  rw [settleWrite_truncations, settleWrite_entries]
  exact announced

theorem DrainState.Announced.writeFinishedEchoLine {state : DrainState config}
    (announced : state.Announced) (limiter : EchoLineLimiter) (ending : List UInt8) :
    (writeFinishedEchoLine limiter ending state).Announced := by
  unfold BoundedEcho.writeFinishedEchoLine
  split
  next => exact announced
  next finished found =>
    split
    next => exact announced
    next =>
      have sunk : ({ state with sink := (config.sink.write state.sink finished.payload
          finished.sourceBytes false).2 } : DrainState config).Announced := announced
      have settled := sunk.settleWrite (config.sink.write state.sink finished.payload
        finished.sourceBytes false).1
      unfold Announced at settled ⊢
      dsimp only
      split
      next => simp [settled, EchoEntry.truncation]
      next => simp [settled]

theorem DrainState.Announced.finalWrite {state : DrainState config}
    (announced : state.Announced) : (finalWrite state).Announced := by
  unfold BoundedEcho.finalWrite
  split
  next =>
    have sunk : ({ state with sink := (config.sink.write state.sink [] 0 true).2 } :
      DrainState config).Announced := announced
    exact sunk.settleWrite _
  next => exact announced

def DrainState.Marked (state : DrainState config) : Prop :=
  ∀ entry ∈ state.entries, entry.Marked

theorem DrainState.Marked.writeFinishedEchoLine {state : DrainState config}
    (marked : state.Marked) (limiter : EchoLineLimiter) (ending : List UInt8) :
    (writeFinishedEchoLine limiter ending state).Marked := by
  cases found : (finishLine limiter ending config.settings).1 with
  | none =>
      unfold BoundedEcho.writeFinishedEchoLine
      rw [found]
      exact marked
  | some finished =>
      cases disabled : state.disabled with
      | true =>
          unfold BoundedEcho.writeFinishedEchoLine
          rw [found]
          simp only [disabled, if_true]
          exact marked
      | false =>
          obtain ⟨reply, wrote⟩ := writeFinishedEchoLine_entries found disabled
          intro entry member
          rw [wrote] at member
          rcases List.mem_append.mp member with earlier | last
          · exact marked entry earlier
          · rw [List.mem_singleton.mp last]
            rfl

theorem DrainState.Marked.finalWrite {state : DrainState config} (marked : state.Marked) :
    (finalWrite state).Marked := by
  unfold BoundedEcho.finalWrite
  split
  next =>
    unfold Marked
    rw [settleWrite_entries]
    exact marked
  next => exact marked

end Events

end Cuprum.BoundedEcho
