import Cuprum.Text.CodePoint
import Cuprum.Text.Lines

namespace Cuprum.Streams

open Text

def lineBoundaryCharacters : List CodePoint :=
  [0x0A, 0x0D, 0x0B, 0x0C, 0x1C, 0x1D, 0x1E, 0x85, 0x2028, 0x2029].map .ofNat

def universal : LineEndings CodePoint where
  isBoundary c := decide (c ∈ lineBoundaryCharacters)
  carriageReturn := .ofNat 0x0D
  lineFeed := .ofNat 0x0A
  isBoundary_carriageReturn := by decide
  isBoundary_lineFeed := by decide
  carriageReturn_ne_lineFeed := by decide

def splitlines (text : List CodePoint) : List (List CodePoint) :=
  universal.lines text

/-- A retention bound that passed option validation. -/
structure LineBound where
  chars : Nat
  positive : 0 < chars

def slice (text : List CodePoint) (start stop : Nat) : List CodePoint :=
  (text.drop start).take (stop - start)

def findNextBoundary (text : List CodePoint) (start : Nat) : Option Nat :=
  ((text.drop start).findIdx? universal.isBoundary).map (start + ·)

def boundaryWidth (text : List CodePoint) (index : Nat) : Nat :=
  if [universal.carriageReturn, universal.lineFeed] <+: text.drop index then 2
  else 1

structure LineAccumulator where
  parts : List (List CodePoint)
  pendingChars : Nat
  skipNextLf : Bool
  maxLineChars : Option LineBound
  hasEmittedFragment : Bool

namespace LineAccumulator

def initial (maxLineChars : Option LineBound) : LineAccumulator :=
  ⟨[], 0, false, maxLineChars, false⟩

/-- Add text to the pending line without copying what is retained. -/
def append (self : LineAccumulator) (text : List CodePoint) : LineAccumulator :=
  if text = [] then self
  else { self with
    parts := self.parts ++ [text]
    pendingChars := self.pendingChars + text.length }

def takeParts (remaining : Nat) :
    List (List CodePoint) → List (List CodePoint) × List (List CodePoint)
  | [] => ([], [])
  | part :: parts =>
      if remaining = 0 then ([], part :: parts)
      else if part.length ≤ remaining then
        let (taken, left) := takeParts (remaining - part.length) parts
        (part :: taken, left)
      else ([part.take remaining], part.drop remaining :: parts)

/-- Remove and return the leading pending characters. -/
def take (self : LineAccumulator) (count : Nat) :
    List CodePoint × LineAccumulator :=
  let (taken, parts) := takeParts count self.parts
  let text := taken.flatten
  (text, { self with parts, pendingChars := self.pendingChars - text.length })

/-- Fragments that keep the pending line within the bound. -/
def splitOverflow (self : LineAccumulator) :
    List (List CodePoint) × LineAccumulator :=
  match self.maxLineChars with
  | none => ([], self)
  | some ⟨bound, _⟩ =>
      if self.pendingChars ≤ bound then ([], self)
      else
        let pending := self.parts.flatten
        let fragmentCount := (pending.length - 1) / bound
        let fragments := (List.range fragmentCount).map fun index =>
          slice pending (index * bound) ((index + 1) * bound)
        let remainder := pending.drop (fragmentCount * bound)
        (fragments, { self with
          hasEmittedFragment := true
          parts := if remainder = [] then [] else [remainder]
          pendingChars := remainder.length })

def completeLine (self : LineAccumulator) :
    List (List CodePoint) × LineAccumulator :=
  let (fragments, self) := self.splitOverflow
  let (line, self) := self.take self.pendingChars
  (fragments ++ [line], self)

/-- The index where scanning begins, and any line the held return completed. -/
def resumeHeldCarriageReturn (self : LineAccumulator) (text : List CodePoint) :
    Nat × List (List CodePoint) × LineAccumulator :=
  if self.skipNextLf then
    let start := if text.head? = some universal.lineFeed then 1 else 0
    let (emitted, self) := { self with skipNextLf := false }.completeLine
    (start, emitted, self)
  else (0, [], self)

theorem findNextBoundary_some {text : List CodePoint} {start index : Nat}
    (found : findNextBoundary text start = some index) :
    start ≤ index ∧ index < text.length := by
  simp only [findNextBoundary, Option.map_eq_some_iff,
    List.findIdx?_eq_some_iff_getElem] at found
  obtain ⟨offset, ⟨within, _⟩, rfl⟩ := found
  rw [List.length_drop] at within
  omega

def scanBoundaries (self : LineAccumulator) (scanText : List CodePoint)
    (start : Nat) : List (List CodePoint) × Nat × LineAccumulator :=
  match _found : findNextBoundary scanText start with
  | none => ([], start, self)
  | some index =>
      let (lines, self) := (self.append (slice scanText start index)).completeLine
      let (emitted, start, self) :=
        scanBoundaries self scanText (index + boundaryWidth scanText index)
      (lines ++ emitted, start, self)
termination_by scanText.length - start
decreasing_by
  have := findNextBoundary_some _found
  simp only [boundaryWidth]
  split <;> omega

/-- Consume decoded text: the lines and fragments it completes. -/
def feed (self : LineAccumulator) (text : List CodePoint) :
    List (List CodePoint) × LineAccumulator :=
  if text = [] then ([], self)
  else
    let (start, resumed, self) := self.resumeHeldCarriageReturn text
    let holdsCarriageReturn :=
      decide (text.getLast? = some universal.carriageReturn)
    let scanText := if holdsCarriageReturn then text.dropLast else text
    let (lines, start, self) := self.scanBoundaries scanText start
    let self := self.append (scanText.drop start)
    let self := { self with
      skipNextLf := if holdsCarriageReturn then true else self.skipNextLf }
    let (fragments, self) := self.splitOverflow
    (resumed ++ lines ++ fragments, self)

def finish (self : LineAccumulator) : Option (List CodePoint) × LineAccumulator :=
  let heldBoundary := self.skipNextLf
  let self := { self with skipNextLf := false }
  if heldBoundary = false ∧ self.parts = [] then (none, self)
  else
    let (line, self) := self.take self.pendingChars
    (some line, self)

/-! The accumulator's view: the pending line, then a held carriage return. -/

def pending (self : LineAccumulator) : List CodePoint :=
  self.parts.flatten

def held (self : LineAccumulator) : List CodePoint :=
  if self.skipNextLf then [universal.carriageReturn] else []

def bound (self : LineAccumulator) : Option Nat :=
  self.maxLineChars.map LineBound.chars

structure WellFormed (accumulator : LineAccumulator) : Prop where
  counted : accumulator.pendingChars = accumulator.pending.length
  nonempty : ∀ part ∈ accumulator.parts, part ≠ []

def WithinBound (self : LineAccumulator) : Prop :=
  ∀ limit ∈ self.bound, self.pendingChars ≤ limit

/-- What every continuation of the stream will see as bounded lines. -/
def remaining (self : LineAccumulator) (rest : List CodePoint) :
    List (List CodePoint) :=
  universal.boundedFrom self.bound self.pending rest

theorem wellFormed_initial (maxLineChars : Option LineBound) :
    (initial maxLineChars).WellFormed :=
  ⟨rfl, by simp [initial]⟩

@[simp] theorem append_pending (self : LineAccumulator) (text : List CodePoint) :
    (self.append text).pending = self.pending ++ text := by
  unfold append pending
  split
  next empty => simp [empty]
  next => simp

@[simp] theorem append_maxLineChars (self : LineAccumulator)
    (text : List CodePoint) :
    (self.append text).maxLineChars = self.maxLineChars := by
  unfold append
  split <;> rfl

@[simp] theorem append_skipNextLf (self : LineAccumulator)
    (text : List CodePoint) :
    (self.append text).skipNextLf = self.skipNextLf := by
  unfold append
  split <;> rfl

theorem WellFormed.append {self : LineAccumulator} (wellFormed : self.WellFormed)
    (text : List CodePoint) : (self.append text).WellFormed := by
  refine ⟨?_, ?_⟩
  · rw [append_pending, List.length_append, ← wellFormed.counted]
    unfold LineAccumulator.append
    split
    next empty => simp [empty]
    next => rfl
  · unfold LineAccumulator.append
    split
    next => exact wellFormed.nonempty
    next nonempty =>
      intro part member
      rcases List.mem_append.mp member with member | member
      · exact wellFormed.nonempty part member
      · rw [List.mem_singleton.mp member]
        exact nonempty

theorem takeParts_all (parts : List (List CodePoint))
    (nonempty : ∀ part ∈ parts, part ≠ []) :
    takeParts parts.flatten.length parts = (parts, []) := by
  induction parts with
  | nil => rfl
  | cons part parts induction =>
      have positive := List.length_pos_iff.mpr (nonempty part List.mem_cons_self)
      have rest := induction fun other member =>
        nonempty other (List.mem_cons_of_mem part member)
      rw [List.flatten_cons, List.length_append, takeParts, if_neg (by omega),
        if_pos (by omega), Nat.add_sub_cancel_left, rest]

theorem take_all {self : LineAccumulator} (wellFormed : self.WellFormed) :
    self.take self.pendingChars =
      (self.pending, { self with parts := [], pendingChars := 0 }) := by
  have whole := takeParts_all self.parts wellFormed.nonempty
  rw [take, wellFormed.counted, pending, whole]
  simp

theorem slice_block (text : List CodePoint) (index size : Nat) :
    slice text (index * size) ((index + 1) * size) =
      (text.drop (index * size)).take size := by
  rw [slice, Nat.succ_mul, Nat.add_sub_cancel_left]

/-- One operation of the accumulator: the lines it emits, followed by what the
state still owes on any continuation, are what the old state owed. -/
structure Emits (before : LineAccumulator) (text : List CodePoint)
    (emitted : List (List CodePoint)) (after : LineAccumulator)
    (left : List CodePoint) : Prop where
  wellFormed : after.WellFormed
  maxLineChars : after.maxLineChars = before.maxLineChars
  remaining : before.remaining text = emitted ++ after.remaining left

/-- The remainder after the fragments is neither empty nor over the bound. -/
theorem fragmentCount_fits {length bound : Nat} (long : bound < length) :
    (length - 1) / bound * bound < length ∧
      (0 < bound → length - (length - 1) / bound * bound ≤ bound) := by
  have division := Nat.div_add_mod (length - 1) bound
  rw [Nat.mul_comm] at division
  refine ⟨by omega, fun positive => ?_⟩
  have := Nat.mod_lt (length - 1) positive
  omega

theorem splitOverflow_skipNextLf (self : LineAccumulator) :
    self.splitOverflow.2.skipNextLf = self.skipNextLf := by
  unfold splitOverflow
  split
  next => rfl
  next => split <;> rfl

theorem splitOverflow_of_fits {self : LineAccumulator}
    (fits : self.WithinBound) : self.splitOverflow = ([], self) := by
  unfold splitOverflow
  split
  next => rfl
  next bound positive bounded =>
    rw [if_pos (fits bound (by simp [LineAccumulator.bound, bounded]))]

theorem splitOverflow_of_over {self : LineAccumulator}
    (wellFormed : self.WellFormed) {limit : LineBound}
    (bounded : self.maxLineChars = some limit)
    (exceeds : limit.chars < self.pendingChars) :
    self.splitOverflow =
      ((List.range ((self.pendingChars - 1) / limit.chars)).map fun index =>
          (self.pending.drop (index * limit.chars)).take limit.chars,
        { self with
          hasEmittedFragment := true
          parts := [self.pending.drop
            ((self.pendingChars - 1) / limit.chars * limit.chars)]
          pendingChars := self.pendingChars -
            (self.pendingChars - 1) / limit.chars * limit.chars }) := by
  have inside := (fragmentCount_fits exceeds).1
  have nonempty : self.pending.drop
      ((self.pendingChars - 1) / limit.chars * limit.chars) ≠ [] := by
    simpa [← wellFormed.counted] using inside
  have counted : self.parts.flatten.length = self.pendingChars :=
    wellFormed.counted.symm
  unfold splitOverflow
  rw [bounded]
  simp only [if_neg (Nat.not_le.mpr exceeds), slice_block, counted,
    List.length_drop]
  rw [← pending, if_neg nonempty]

theorem splitOverflow_emits {self : LineAccumulator}
    (wellFormed : self.WellFormed) (rest : List CodePoint) :
    Emits self rest self.splitOverflow.1 self.splitOverflow.2 rest ∧
      self.splitOverflow.2.WithinBound := by
  by_cases fits : self.WithinBound
  · rw [splitOverflow_of_fits fits]
    exact ⟨⟨wellFormed, rfl, rfl⟩, fits⟩
  · obtain ⟨limit, bounded, exceeds⟩ : ∃ limit, self.maxLineChars = some limit ∧
        limit.chars < self.pendingChars := by
      cases bounded : self.maxLineChars with
      | none =>
          exact absurd (fun limit member => by simp [bound, bounded] at member) fits
      | some limit =>
          refine ⟨limit, rfl, Nat.lt_of_not_le fun within => fits ?_⟩
          intro other member
          have equal : limit.chars = other := by
            simpa [bound, bounded] using member
          rwa [← equal]
    obtain ⟨inside, short⟩ := fragmentCount_fits exceeds
    have limited : self.bound = some limit.chars := by
      simp [bound, bounded]
    have settled := universal.boundedFrom_overflow limit.positive self.pending
      rest _ (Or.inr (wellFormed.counted ▸ inside))
    rw [← wellFormed.counted] at settled
    rw [splitOverflow_of_over wellFormed bounded exceeds]
    refine ⟨⟨⟨?_, ?_⟩, rfl, ?_⟩, ?_⟩
    · simp only [pending, List.flatten_singleton, List.length_drop]
      rw [← pending, ← wellFormed.counted]
    · intro part member
      rw [List.mem_singleton.mp member]
      simpa [← wellFormed.counted] using inside
    · rw [LineAccumulator.remaining, LineAccumulator.remaining, limited, settled]
      simp only [bound, bounded, Option.map_some, pending,
        List.flatten_singleton]
    · intro other member
      have equal : limit.chars = other := by
        simpa [bound, bounded] using member
      rw [← equal]
      exact short limit.positive

theorem cut_pending_of_withinBound {self : LineAccumulator}
    (wellFormed : self.WellFormed) (within : self.WithinBound) :
    cut self.bound self.pending = [self.pending] := by
  cases limited : self.bound with
  | none => rfl
  | some limit =>
      have short := within limit (by simp [limited])
      rw [wellFormed.counted] at short
      exact pieces_of_le short

theorem remaining_lineFeed (self : LineAccumulator) :
    self.remaining [universal.lineFeed] = cut self.bound self.pending := by
  rw [remaining, universal.boundedFrom_boundary _ universal.isBoundary_lineFeed
    (by simp)]
  simp [LineEndings.boundedFrom]

structure Completes (before : LineAccumulator) (lines : List (List CodePoint))
    (after : LineAccumulator) : Prop where
  lines : lines = cut before.bound before.pending
  wellFormed : after.WellFormed
  pending : after.pending = []
  maxLineChars : after.maxLineChars = before.maxLineChars
  skipNextLf : after.skipNextLf = before.skipNextLf

/-- A completed line leaves as its pieces, and nothing stays pending. -/
theorem completeLine_completes {self : LineAccumulator}
    (wellFormed : self.WellFormed) :
    Completes self self.completeLine.1 self.completeLine.2 := by
  obtain ⟨split, within⟩ :=
    splitOverflow_emits wellFormed [universal.lineFeed]
  have taken := take_all split.wellFormed
  have whole := split.remaining
  rw [remaining_lineFeed, remaining_lineFeed,
    cut_pending_of_withinBound split.wellFormed within] at whole
  simp only [completeLine, taken]
  exact ⟨whole.symm, ⟨rfl, by simp⟩, rfl, split.maxLineChars,
    splitOverflow_skipNextLf self⟩

theorem bound_congr {before after : LineAccumulator}
    (equal : after.maxLineChars = before.maxLineChars) :
    after.bound = before.bound := by
  rw [bound, equal]
  rfl

theorem Completes.remaining {before after : LineAccumulator}
    {lines : List (List CodePoint)} (completes : Completes before lines after)
    (rest : List CodePoint) :
    after.remaining rest = universal.boundedFrom before.bound [] rest := by
  rw [LineAccumulator.remaining, bound_congr completes.maxLineChars,
    completes.pending]

theorem Emits.trans {first second third : LineAccumulator}
    {start middle stop : List CodePoint} {lines more : List (List CodePoint)}
    (before : Emits first start lines second middle)
    (after : Emits second middle more third stop) :
    Emits first start (lines ++ more) third stop where
  wellFormed := after.wellFormed
  maxLineChars := after.maxLineChars.trans before.maxLineChars
  remaining := by
    rw [before.remaining, after.remaining, List.append_assoc]

theorem append_emits {self : LineAccumulator} (wellFormed : self.WellFormed)
    {text : List CodePoint}
    (plain : ∀ c ∈ text, universal.isBoundary c = false) (rest : List CodePoint) :
    Emits self (text ++ rest) [] (self.append text) rest where
  wellFormed := wellFormed.append text
  maxLineChars := append_maxLineChars self text
  remaining := by
    rw [remaining, universal.boundedFrom_append_plain _ plain, remaining,
      append_pending, bound_congr (append_maxLineChars self text)]
    rfl

theorem findNextBoundary_none {text : List CodePoint} {start : Nat}
    (found : findNextBoundary text start = none) :
    ∀ c ∈ text.drop start, universal.isBoundary c = false := by
  simpa [findNextBoundary] using found

theorem drop_findNextBoundary {text : List CodePoint} {start index : Nat}
    (found : findNextBoundary text start = some index) :
    (∀ c ∈ slice text start index, universal.isBoundary c = false) ∧
      text.drop start = slice text start index ++ text.drop index ∧
      ∃ c, universal.isBoundary c = true ∧
        text.drop index = c :: text.drop (index + 1) := by
  simp only [findNextBoundary, Option.map_eq_some_iff,
    List.findIdx?_eq_some_iff_getElem] at found
  obtain ⟨offset, ⟨within, boundary, before⟩, rfl⟩ := found
  have inside : start + offset < text.length := by
    rw [List.length_drop] at within
    omega
  have width : start + offset - start = offset := by omega
  refine ⟨?_, ?_, text[start + offset], ?_, ?_⟩
  · intro c member
    rw [slice, width] at member
    obtain ⟨position, small, rfl⟩ := List.getElem_of_mem member
    rw [List.length_take] at small
    rw [List.getElem_take]
    simpa using before position (by omega)
  · rw [slice, width, ← List.drop_drop, List.take_append_drop]
  · simpa using boundary
  · exact (List.getElem_cons_drop inside).symm

/-- A boundary inside the scanned text ends one line: the text is closed, so a
carriage return at its end has no line feed after it. -/
theorem boundedFrom_boundaryWidth {text tail : List CodePoint} {index : Nat}
    {c : CodePoint} (boundary : universal.isBoundary c = true)
    (here : text.drop index = c :: text.drop (index + 1))
    (closed : text.getLast? = some universal.carriageReturn →
      tail.head? ≠ some universal.lineFeed)
    (bound : Option Nat) (line : List CodePoint) :
    universal.boundedFrom bound line (text.drop index ++ tail) =
      cut bound line ++ universal.boundedFrom bound []
        (text.drop (index + boundaryWidth text index) ++ tail) := by
  unfold boundaryWidth
  split
  next isPair =>
    obtain ⟨rest, shape⟩ := isPair
    have after : text.drop (index + 2) = rest := by
      rw [← List.drop_drop, ← shape]
      rfl
    rw [after, ← shape]
    exact universal.boundedFrom_pair bound line (rest ++ tail)
  next notPair =>
    rw [here, List.cons_append]
    refine universal.boundedFrom_boundary bound boundary ?_ line
    rintro rfl
    cases next : text.drop (index + 1) with
    | nil =>
        refine closed ?_
        rw [← List.take_append_drop index text, here, next]
        simp
    | cons d rest =>
        intro head
        refine notPair ⟨rest, ?_⟩
        rw [here, next]
        simpa using head.symm

theorem scanBoundaries_emits {self : LineAccumulator}
    (wellFormed : self.WellFormed) {scanText tail : List CodePoint}
    (closed : scanText.getLast? = some universal.carriageReturn →
      tail.head? ≠ some universal.lineFeed) (start : Nat) :
    let (lines, stop, after) := self.scanBoundaries scanText start
    Emits self (scanText.drop start ++ tail) lines after
        (scanText.drop stop ++ tail) ∧
      (∀ c ∈ scanText.drop stop, universal.isBoundary c = false) ∧
      after.skipNextLf = self.skipNextLf := by
  fun_induction scanBoundaries self scanText start with
  | case1 self start found =>
      exact ⟨⟨wellFormed, rfl, rfl⟩, findNextBoundary_none found, rfl⟩
  | case2 self start index found lines completed completes emitted stop after
      scanned induction =>
      rw [scanned] at induction
      obtain ⟨plain, shape, c, boundary, here⟩ := drop_findNextBoundary found
      have appended := append_emits wellFormed plain (scanText.drop index ++ tail)
      have complete := completeLine_completes appended.wellFormed
      rw [completes] at complete
      have line : Emits (self.append (slice scanText start index))
          (scanText.drop index ++ tail) lines completed
          (scanText.drop (index + boundaryWidth scanText index) ++ tail) := by
        refine ⟨complete.wellFormed, complete.maxLineChars, ?_⟩
        have pieces : lines = _ := complete.lines
        rw [remaining, boundedFrom_boundaryWidth boundary here closed,
          complete.remaining, pieces]
      obtain ⟨rest, done, skip⟩ := induction complete.wellFormed
      refine ⟨?_, done, ?_⟩
      · rw [shape, List.append_assoc]
        exact appended.trans (line.trans rest)
      · rw [skip, complete.skipNextLf, append_skipNextLf]

def release (self : LineAccumulator) : LineAccumulator :=
  { self with skipNextLf := false }

theorem resumeHeldCarriageReturn_of_held {self : LineAccumulator}
    (skip : self.skipNextLf = true) (text : List CodePoint) :
    self.resumeHeldCarriageReturn text =
      (if text.head? = some universal.lineFeed then 1 else 0,
        self.release.completeLine.1, self.release.completeLine.2) := by
  rw [resumeHeldCarriageReturn, if_pos skip]
  rfl

/-- A held carriage return ends its line with or without a following feed. -/
theorem boundedFrom_held {text : List CodePoint} (nonempty : text ≠ [])
    (bound : Option Nat) (line rest : List CodePoint) :
    universal.boundedFrom bound line
        (universal.carriageReturn :: (text ++ rest)) =
      cut bound line ++ universal.boundedFrom bound []
        (text.drop (if text.head? = some universal.lineFeed then 1 else 0) ++
          rest) := by
  obtain ⟨c, text, rfl⟩ := List.exists_cons_of_ne_nil nonempty
  by_cases pair : c = universal.lineFeed
  · subst pair
    exact universal.boundedFrom_pair _ _ (text ++ rest)
  · rw [universal.boundedFrom_boundary _ universal.isBoundary_carriageReturn
      (by simpa using pair)]
    simp [pair]

theorem resumeHeldCarriageReturn_emits {self : LineAccumulator}
    (wellFormed : self.WellFormed) {text : List CodePoint} (nonempty : text ≠ [])
    (rest : List CodePoint) :
    Emits self (self.held ++ (text ++ rest))
        (self.resumeHeldCarriageReturn text).2.1
        (self.resumeHeldCarriageReturn text).2.2
        (text.drop (self.resumeHeldCarriageReturn text).1 ++ rest) ∧
      ((self.resumeHeldCarriageReturn text).1 = 0 ∨
        (self.resumeHeldCarriageReturn text).1 = 1 ∧
          text.head? = some universal.lineFeed) ∧
      (self.resumeHeldCarriageReturn text).2.2.skipNextLf = false := by
  cases skip : self.skipNextLf with
  | false =>
      rw [resumeHeldCarriageReturn, skip]
      exact ⟨⟨wellFormed, rfl, by simp [held, skip]⟩, .inl rfl, skip⟩
  | true =>
      have released : self.release.WellFormed :=
        ⟨wellFormed.counted, wellFormed.nonempty⟩
      have complete := completeLine_completes released
      rw [resumeHeldCarriageReturn_of_held skip]
      refine ⟨⟨complete.wellFormed, complete.maxLineChars, ?_⟩, ?_,
        complete.skipNextLf⟩
      · rw [complete.remaining, complete.lines, held, if_pos skip]
        exact boundedFrom_held nonempty self.bound self.pending rest
      · split
        next feed => exact .inr ⟨rfl, feed⟩
        next => exact .inl rfl

/-- The scanned text of a chunk and what follows it: a trailing carriage return
is left to the continuation. -/
theorem scanText_split {text : List CodePoint} {start : Nat}
    (begins : start = 0 ∨ start = 1 ∧ text.head? = some universal.lineFeed)
    (holds : text.getLast? = some universal.carriageReturn) :
    text.drop start =
      text.dropLast.drop start ++ [universal.carriageReturn] := by
  have nonempty : text ≠ [] := by
    rintro rfl
    simp at holds
  have whole : text.dropLast ++ [universal.carriageReturn] = text := by
    rw [List.getLast?_eq_some_getLast nonempty] at holds
    rw [← Option.some.inj holds]
    exact List.dropLast_append_getLast nonempty
  have inside : start ≤ text.dropLast.length := by
    rcases begins with rfl | ⟨rfl, head⟩
    · omega
    · rw [← whole] at head
      cases front : text.dropLast with
      | nil =>
          rw [front] at head
          exact absurd (Option.some.inj head) universal.carriageReturn_ne_lineFeed
      | cons c rest => simp
  rw [← List.drop_append_of_le_length inside, whole]

theorem scanBoundaries_append_emits {self : LineAccumulator}
    (wellFormed : self.WellFormed) (scanText tail : List CodePoint)
    (closed : scanText.getLast? = some universal.carriageReturn →
      tail.head? ≠ some universal.lineFeed) (start : Nat) :
    let (lines, stop, after) := self.scanBoundaries scanText start
    Emits self (scanText.drop start ++ tail) lines
        (after.append (scanText.drop stop)) tail ∧
      (after.append (scanText.drop stop)).skipNextLf = self.skipNextLf := by
  have scanned := scanBoundaries_emits wellFormed closed start
  obtain ⟨emits, plain, skip⟩ := scanned
  have appended := append_emits emits.wellFormed plain tail
  refine ⟨?_, ?_⟩
  · have both := emits.trans appended
    rw [List.append_nil] at both
    exact both
  · rw [append_skipNextLf, skip]

/-- The end of a chunk: a trailing return is held, and the tail is bounded. -/
theorem hold_emits {self : LineAccumulator} (wellFormed : self.WellFormed)
    (holds : Bool) (unheld : self.skipNextLf = false) (rest : List CodePoint) :
    let after := { self with
      skipNextLf := if holds then true else self.skipNextLf }.splitOverflow
    Emits self ((if holds then [universal.carriageReturn] else []) ++ rest)
        after.1 after.2 (after.2.held ++ rest) ∧
      after.2.WithinBound := by
  have holding : WellFormed { self with
      skipNextLf := if holds then true else self.skipNextLf } :=
    ⟨wellFormed.counted, wellFormed.nonempty⟩
  have skip := splitOverflow_skipNextLf { self with
    skipNextLf := if holds then true else self.skipNextLf }
  intro after
  have split := splitOverflow_emits holding (after.2.held ++ rest)
  have heldEqual : after.2.held =
      if holds then [universal.carriageReturn] else [] := by
    rw [held, skip, unheld]
    cases holds <;> rfl
  refine ⟨⟨split.1.wellFormed, split.1.maxLineChars, ?_⟩, split.2⟩
  rw [← heldEqual]
  exact split.1.remaining

theorem feed_emits {self : LineAccumulator} (wellFormed : self.WellFormed)
    (within : self.WithinBound) (text rest : List CodePoint) :
    Emits self (self.held ++ (text ++ rest)) (self.feed text).1 (self.feed text).2
        ((self.feed text).2.held ++ rest) ∧
      (self.feed text).2.WithinBound := by
  by_cases nonempty : text = []
  · rw [feed, if_pos nonempty, nonempty]
    exact ⟨⟨wellFormed, rfl, rfl⟩, within⟩
  · obtain ⟨resume, begins, unheld⟩ :=
      resumeHeldCarriageReturn_emits wellFormed nonempty rest
    simp only [feed, if_neg nonempty]
    cases holds : decide (text.getLast? = some universal.carriageReturn) with
    | false =>
        have last := of_decide_eq_false holds
        have scanned := scanBoundaries_append_emits resume.wellFormed text rest
          (fun isReturn => absurd isReturn last)
          (self.resumeHeldCarriageReturn text).1
        rw [if_neg (by simp)]
        obtain ⟨emits, skip⟩ := scanned
        have finished := hold_emits emits.wellFormed false (skip.trans unheld) rest
        exact ⟨(resume.trans emits).trans finished.1, finished.2⟩
    | true =>
        have last := of_decide_eq_true holds
        rw [scanText_split begins last, List.append_assoc] at resume
        have scanned := scanBoundaries_append_emits resume.wellFormed
          text.dropLast ([universal.carriageReturn] ++ rest)
          (fun _ => by simpa using universal.carriageReturn_ne_lineFeed) (self.resumeHeldCarriageReturn text).1
        rw [if_pos rfl]
        obtain ⟨emits, skip⟩ := scanned
        have finished := hold_emits emits.wellFormed true (skip.trans unheld) rest
        exact ⟨(resume.trans emits).trans finished.1, finished.2⟩

/-- Feed every chunk in order, collecting what each one completes. -/
def feedAll (self : LineAccumulator) :
    List (List CodePoint) → List (List CodePoint) × LineAccumulator
  | [] => ([], self)
  | chunk :: chunks =>
      let (lines, self) := self.feed chunk
      let (more, self) := feedAll self chunks
      (lines ++ more, self)

theorem feedAll_emits {self : LineAccumulator} (wellFormed : self.WellFormed)
    (within : self.WithinBound) (chunks : List (List CodePoint))
    (rest : List CodePoint) :
    Emits self (self.held ++ (chunks.flatten ++ rest)) (self.feedAll chunks).1
        (self.feedAll chunks).2 ((self.feedAll chunks).2.held ++ rest) ∧
      (self.feedAll chunks).2.WithinBound := by
  induction chunks generalizing self with
  | nil => exact ⟨⟨wellFormed, rfl, rfl⟩, within⟩
  | cons chunk chunks induction =>
      obtain ⟨fed, bounded⟩ :=
        feed_emits wellFormed within chunk (chunks.flatten ++ rest)
      obtain ⟨emits, final⟩ := induction fed.wellFormed bounded
      rw [List.flatten_cons, List.append_assoc]
      exact ⟨fed.trans emits, final⟩

theorem finish_of_pending {self : LineAccumulator} (wellFormed : self.WellFormed)
    (owes : ¬ (self.skipNextLf = false ∧ self.parts = [])) :
    self.finish.1 = some self.pending := by
  have released : self.release.WellFormed :=
    ⟨wellFormed.counted, wellFormed.nonempty⟩
  have taken : self.release.take self.pendingChars = (self.pending, _) :=
    take_all released
  rw [finish, if_neg owes]
  exact congrArg (fun result => some result.1) taken

/-- Finishing pays exactly what the accumulator still owes. -/
theorem finish_lines {self : LineAccumulator} (wellFormed : self.WellFormed)
    (within : self.WithinBound) :
    self.finish.1.toList = self.remaining self.held := by
  have whole := cut_pending_of_withinBound wellFormed within
  by_cases settled : self.skipNextLf = false ∧ self.parts = []
  · rw [finish, if_pos settled, remaining, held, settled.1, pending, settled.2]
    rfl
  · rw [finish_of_pending wellFormed settled, Option.toList_some, ← whole,
      remaining, held]
    cases skip : self.skipNextLf with
    | true =>
        rw [if_pos rfl, universal.boundedFrom_boundary _
          universal.isBoundary_carriageReturn (by simp)]
        simp [LineEndings.boundedFrom]
    | false =>
        obtain ⟨part, parts, shape⟩ :=
          List.exists_cons_of_ne_nil fun empty => settled ⟨skip, empty⟩
        have filled : self.pending ≠ [] := by
          have := wellFormed.nonempty part (by simp [shape])
          simp [pending, shape, this]
        rw [LineEndings.boundedFrom, if_neg (by simp),
          universal.linesFrom_nil filled]
        simp

/-- Feeding a text in any chunks and finishing yields its lines, each cut into
pieces of the bound; no more than the bound is ever retained. -/
theorem feed_chunks_lines (maxLineChars : Option LineBound)
    (chunks : List (List CodePoint)) :
    let (lines, accumulator) := (initial maxLineChars).feedAll chunks
    lines ++ accumulator.finish.1.toList =
        (splitlines chunks.flatten).flatMap
          (cut (maxLineChars.map LineBound.chars)) ∧
      accumulator.pendingChars = accumulator.parts.flatten.length ∧
      ∀ bound ∈ maxLineChars, accumulator.pendingChars ≤ bound.chars := by
  have empty : (initial maxLineChars).WithinBound := fun _ _ => Nat.zero_le _
  obtain ⟨emits, within⟩ :=
    feedAll_emits (wellFormed_initial maxLineChars) empty chunks []
  have owed := finish_lines emits.wellFormed within
  refine ⟨?_, emits.wellFormed.counted, ?_⟩
  · have whole := emits.remaining
    rw [List.append_nil, List.append_nil, ← owed] at whole
    rw [← whole]
    exact (universal.boundedLines_eq _ _).symm
  · intro bound member
    refine within bound.chars ?_
    rw [bound_congr emits.maxLineChars]
    exact Option.mem_map_of_mem LineBound.chars member

end LineAccumulator

end Cuprum.Streams
