import Cuprum.Relay.Stream
import Cuprum.Effect.Recorder

namespace Cuprum.Relay

open Effect

/-! What the deeds of a pump say of the chunks it was given. -/

namespace Deed

def received : Deed → Option (List UInt8)
  | .read chunk => some chunk
  | _ => none

def handed : Deed → Option (List UInt8)
  | .wrote chunk => some chunk
  | _ => none

def completion : Deed → Option StreamOperationEvent
  | .completed event => some event
  | _ => none

def isReading : Deed → Bool
  | .read _ | .failed _ | .expired => true
  | _ => false

def settles : Deed → Bool
  | .closed | .completed _ => true
  | _ => false

/-- Whether the deed is part of what the reader and the writer see before the close. -/
def isRelaying : Deed → Bool
  | .wrote _ | .refused => true
  | deed => deed.isReading

end Deed

def received (deeds : List Deed) : List (List UInt8) :=
  deeds.filterMap Deed.received

def chunks (deeds : List Deed) : List (List UInt8) :=
  (received deeds).filter fun chunk => !chunk.isEmpty

def handed (deeds : List Deed) : List (List UInt8) :=
  deeds.filterMap Deed.handed

def completions (deeds : List Deed) : List StreamOperationEvent :=
  deeds.filterMap Deed.completion

section

variable (first rest : List Deed)

@[simp] theorem received_append :
    received (first ++ rest) = received first ++ received rest :=
  List.filterMap_append

@[simp] theorem chunks_append : chunks (first ++ rest) = chunks first ++ chunks rest := by
  simp only [chunks, received_append, List.filter_append]

@[simp] theorem handed_append : handed (first ++ rest) = handed first ++ handed rest :=
  List.filterMap_append

@[simp] theorem completions_append :
    completions (first ++ rest) = completions first ++ completions rest :=
  List.filterMap_append

end

/-- Every chunk read was handed on, up to the one whose write was refused, and none
after it. -/
def Faithful (deeds : List Deed) : Prop :=
  (.refused ∉ deeds ∧ handed deeds = chunks deeds) ∨
    ∃ before after, deeds = before ++ .refused :: after ∧ .refused ∉ before ∧
      .refused ∉ after ∧ handed before = chunks before ∧ handed after = []

/-- A refused write does not end the reading. -/
def ReadOn (deeds : List Deed) : Prop :=
  .refused ∈ deeds →
    .read [] ∈ deeds ∨ .expired ∈ deeds ∨ ∃ error, .failed error ∈ deeds

/-- What an outcome says of a pump that raised `failure`, if it did. -/
def Truthful (hasReader : Bool) (failure : Option Raised) (deeds : List Deed) :
    StreamOperationOutcome → Prop
  | .eof => failure = none ∧ .refused ∉ deeds ∧ (hasReader = true → .read [] ∈ deeds)
  | .downstreamClosed => failure = none ∧ .refused ∈ deeds ∧ .read [] ∈ deeds
  | .postCloseDrainTimeout => failure = none ∧ .refused ∈ deeds ∧ .expired ∈ deeds
  | .cancelled => failure = some .cancelled
  | .failed => failure ≠ none ∧ failure ≠ some .cancelled

def Unsettled (deeds : List Deed) : Prop :=
  ∀ deed ∈ deeds, deed.settles = false

namespace Unsettled

variable {deeds rest : List Deed}

theorem append (unsettled : Unsettled deeds) (later : Unsettled rest) :
    Unsettled (deeds ++ rest) := by
  intro deed mem
  rcases List.mem_append.mp mem with first | second
  · exact unsettled deed first
  · exact later deed second

theorem completions_nil (unsettled : Unsettled deeds) : completions deeds = [] := by
  apply List.filterMap_eq_nil_iff.mpr
  intro deed mem
  have unended := unsettled deed mem
  cases deed with
  | completed => contradiction
  | read | failed | wrote | refused | expired | downstreamClosed | closed | suppressed => rfl

theorem unclosed (unsettled : Unsettled deeds) : deeds.count .closed = 0 := by
  apply List.count_eq_zero.mpr
  intro mem
  have unended := unsettled .closed mem
  contradiction

end Unsettled

/-- What is neither a read nor a write. -/
def Silent (deeds : List Deed) : Prop :=
  ∀ deed ∈ deeds, deed.isRelaying = false

namespace Silent

variable {deeds rest : List Deed}

theorem absent (silent : Silent rest) {deed : Deed} (relaying : deed.isRelaying = true) :
    deed ∉ rest := by
  intro mem
  have quiet := silent deed mem
  rw [relaying] at quiet
  contradiction

theorem mem_append_iff (silent : Silent rest) {deed : Deed}
    (relaying : deed.isRelaying = true) : deed ∈ deeds ++ rest ↔ deed ∈ deeds := by
  simp only [List.mem_append, silent.absent relaying, or_false]

theorem received_nil (silent : Silent rest) : received rest = [] := by
  apply List.filterMap_eq_nil_iff.mpr
  intro deed mem
  have quiet := silent deed mem
  cases deed with
  | read | failed | wrote | refused | expired => contradiction
  | downstreamClosed | closed | suppressed | completed => rfl

theorem handed_nil (silent : Silent rest) : handed rest = [] := by
  apply List.filterMap_eq_nil_iff.mpr
  intro deed mem
  have quiet := silent deed mem
  cases deed with
  | read | failed | wrote | refused | expired => contradiction
  | downstreamClosed | closed | suppressed | completed => rfl

theorem chunks_nil (silent : Silent rest) : chunks rest = [] := by
  rw [chunks, silent.received_nil, List.filter_nil]

theorem faithful (silent : Silent rest) (faithful : Faithful deeds) :
    Faithful (deeds ++ rest) := by
  have quiet : Deed.refused ∉ rest := silent.absent rfl
  rcases faithful with ⟨unrefused, whole⟩ | ⟨before, after, split, first, later, whole, stopped⟩
  · refine .inl ⟨?_, ?_⟩
    · rw [silent.mem_append_iff rfl]
      exact unrefused
    · rw [handed_append, chunks_append, silent.handed_nil, silent.chunks_nil, whole]
  · refine .inr ⟨before, after ++ rest, ?_, first, ?_, whole, ?_⟩
    · rw [split, List.append_assoc, List.cons_append]
    · rw [silent.mem_append_iff rfl]
      exact later
    · rw [handed_append, stopped, silent.handed_nil, List.append_nil]

theorem readOn (silent : Silent rest) (readOn : ReadOn deeds) : ReadOn (deeds ++ rest) := by
  intro refused
  rw [silent.mem_append_iff rfl] at refused
  rcases readOn refused with ended | expired | ⟨error, failed⟩
  · exact .inl (List.mem_append_left rest ended)
  · exact .inr (.inl (List.mem_append_left rest expired))
  · exact .inr (.inr ⟨error, List.mem_append_left rest failed⟩)

theorem truthful_iff (silent : Silent rest) {hasReader : Bool} {failure : Option Raised}
    {outcome : StreamOperationOutcome} :
    Truthful hasReader failure (deeds ++ rest) outcome ↔
      Truthful hasReader failure deeds outcome := by
  have refused : .refused ∈ deeds ++ rest ↔ .refused ∈ deeds := silent.mem_append_iff rfl
  have ended : .read [] ∈ deeds ++ rest ↔ .read [] ∈ deeds := silent.mem_append_iff rfl
  have expired : .expired ∈ deeds ++ rest ↔ .expired ∈ deeds := silent.mem_append_iff rfl
  cases outcome <;> simp only [Truthful, refused, ended, expired]

end Silent

/-- Deeds of a pump whose writes are all accepted, before the end of the stream. -/
structure Flowing (deeds : List Deed) : Prop where
  accepted : .refused ∉ deeds
  timely : .expired ∉ deeds
  unended : .read [] ∉ deeds
  whole : handed deeds = chunks deeds
  unsettled : Unsettled deeds

namespace Flowing

variable {deeds rest : List Deed}

theorem mem_append_iff {deed : Deed} (absent : deed ∉ deeds) :
    deed ∈ deeds ++ rest ↔ deed ∈ rest := by
  simp only [List.mem_append, absent, false_or]

theorem faithful (flowing : Flowing deeds) (faithful : Faithful rest) :
    Faithful (deeds ++ rest) := by
  rcases faithful with ⟨unrefused, whole⟩ | ⟨before, after, split, first, later, whole, stopped⟩
  · refine .inl ⟨?_, ?_⟩
    · rw [mem_append_iff flowing.accepted]
      exact unrefused
    · rw [handed_append, chunks_append, flowing.whole, whole]
  · refine .inr ⟨deeds ++ before, after, ?_, ?_, later, ?_, stopped⟩
    · rw [split, List.append_assoc]
    · rw [mem_append_iff flowing.accepted]
      exact first
    · rw [handed_append, chunks_append, flowing.whole, whole]

theorem readOn (flowing : Flowing deeds) (readOn : ReadOn rest) : ReadOn (deeds ++ rest) := by
  intro refused
  rw [mem_append_iff flowing.accepted] at refused
  rcases readOn refused with ended | expired | ⟨error, failed⟩
  · exact .inl (List.mem_append_right deeds ended)
  · exact .inr (.inl (List.mem_append_right deeds expired))
  · exact .inr (.inr ⟨error, List.mem_append_right deeds failed⟩)

theorem truthful_iff (flowing : Flowing deeds) {hasReader : Bool} {failure : Option Raised}
    {outcome : StreamOperationOutcome} :
    Truthful hasReader failure (deeds ++ rest) outcome ↔
      Truthful hasReader failure rest outcome := by
  have refused : .refused ∈ deeds ++ rest ↔ .refused ∈ rest := mem_append_iff flowing.accepted
  have expired : .expired ∈ deeds ++ rest ↔ .expired ∈ rest := mem_append_iff flowing.timely
  have ended : .read [] ∈ deeds ++ rest ↔ .read [] ∈ rest := mem_append_iff flowing.unended
  cases outcome <;> simp only [Truthful, refused, ended, expired]

theorem accepts {chunk : List UInt8} (full : chunk.isEmpty = false) :
    Flowing [.read chunk, .wrote chunk] := by
  have named : chunk ≠ [] := by
    rintro rfl
    contradiction
  refine ⟨by simp, by simp, by simpa using named.symm, ?_, by simp [Unsettled, Deed.settles]⟩
  change [chunk] = [chunk].filter fun chunk => !chunk.isEmpty
  rw [List.filter_cons_of_pos (by simp only [full, Bool.not_false]), List.filter_nil]

end Flowing

end Cuprum.Relay
