import Mathlib.Data.List.Pairwise

namespace Cuprum.Spans

/-- A half-open interval of positions. -/
structure Span where
  start : Nat
  stop : Nat
  deriving DecidableEq

@[ext] theorem Span.ext {first second : Span} (start : first.start = second.start)
    (stop : first.stop = second.stop) : first = second := by
  cases first
  cases second
  simp_all

def Span.Contains (span : Span) (position : Nat) : Prop :=
  span.start ≤ position ∧ position < span.stop

def Covers (spans : List Span) (position : Nat) : Prop :=
  ∃ span ∈ spans, span.Contains position

/-- A maximal interval of the positions that have a property. -/
structure Run (holds : Nat → Prop) (span : Span) : Prop where
  nonempty : span.start < span.stop
  within : ∀ position, span.Contains position → holds position
  before : ∀ position, position + 1 = span.start → ¬ holds position
  after : ¬ holds span.stop

/-- Spans in order, none of which touches the next. -/
def Apart (spans : List Span) : Prop :=
  spans.Pairwise fun first second => first.stop < second.start

theorem covers_append {left right : List Span} {position : Nat} :
    Covers (left ++ right) position ↔ Covers left position ∨ Covers right position := by
  simp only [Covers, List.mem_append, or_and_right, exists_or]

theorem covers_singleton {span : Span} {position : Nat} :
    Covers [span] position ↔ span.Contains position := by
  simp [Covers]

theorem covers_congr {left right : List Span} (same : ∀ span, span ∈ left ↔ span ∈ right)
    {position : Nat} : Covers left position ↔ Covers right position := by
  simp only [Covers, same]

/-! A run is told by any of its positions. -/

theorem Run.start_le {holds : Nat → Prop} {span : Span} (run : Run holds span)
    {start position : Nat} (inside : span.Contains position)
    (held : ∀ between, start ≤ between → between ≤ position → holds between) :
    span.start ≤ start := by
  by_contra earlier
  obtain ⟨before, next⟩ : ∃ before, before + 1 = span.start :=
    ⟨span.start - 1, by omega⟩
  have first := inside.1
  exact run.before before next (held before (by omega) (by omega))

theorem Run.le_stop {holds : Nat → Prop} {span : Span} (run : Run holds span)
    {stop position : Nat} (inside : span.Contains position)
    (held : ∀ between, position ≤ between → between < stop → holds between) :
    stop ≤ span.stop := by
  by_contra later
  exact run.after (held span.stop (Nat.le_of_lt inside.2) (by omega))

theorem Run.eq_of_contains {holds : Nat → Prop} {first second : Span}
    (left : Run holds first) (right : Run holds second) {position : Nat}
    (inside : first.Contains position) (within : second.Contains position) :
    first = second := by
  have forth := inside.1
  have back := within.1
  have most := inside.2
  have last := within.2
  apply Span.ext
  · apply Nat.le_antisymm
    · exact left.start_le inside fun between least _ => right.within between ⟨least, by omega⟩
    · exact right.start_le within fun between least _ => left.within between ⟨least, by omega⟩
  · apply Nat.le_antisymm
    · exact right.le_stop within fun between _ most => left.within between ⟨by omega, most⟩
    · exact left.le_stop inside fun between _ most => right.within between ⟨by omega, most⟩

theorem Run.stop_le {holds : Nat → Prop} {span : Span} {limit : Nat}
    (run : Run holds span) (inside : ∀ position, holds position → position < limit) :
    span.stop ≤ limit := by
  have wide := run.nonempty
  have last := inside (span.stop - 1) (run.within _ ⟨by omega, by omega⟩)
  omega

/-- Whether a position is outside everything with a property, its boundaries included. -/
def Untouched (holds : Nat → Prop) (position : Nat) : Prop :=
  ¬ holds position ∧ ∀ before, before + 1 = position → ¬ holds before

theorem untouched_iff {spans : List Span}
    (nonempty : ∀ span ∈ spans, span.start < span.stop) (position : Nat) :
    (∀ span ∈ spans, position < span.start ∨ span.stop < position) ↔
      Untouched (Covers spans) position := by
  constructor
  · intro outside
    constructor
    · intro covered
      obtain ⟨span, member, first, last⟩ := covered
      have apart := outside span member
      omega
    · intro before next covered
      obtain ⟨span, member, first, last⟩ := covered
      have apart := outside span member
      omega
  · intro untouched span member
    obtain ⟨uncovered, preceded⟩ := untouched
    have wide := nonempty span member
    by_contra touches
    rcases Nat.lt_or_ge position span.stop with inside | ends
    · exact uncovered ⟨span, member, by omega, inside⟩
    · exact preceded (position - 1) (by omega) ⟨span, member, by omega, by omega⟩

theorem Apart.disjoint {spans : List Span} (apart : Apart spans) {first second : Span}
    (left : first ∈ spans) (right : second ∈ spans) (differ : first ≠ second) :
    first.stop < second.start ∨ second.stop < first.start := by
  have symmetric : Std.Symm fun first second : Span =>
      first.stop < second.start ∨ second.stop < first.start := ⟨fun _ _ => Or.symm⟩
  have either : spans.Pairwise fun first second =>
      first.stop < second.start ∨ second.stop < first.start := apart.imp .inl
  exact either.forall left right differ

/-- Nonempty spans that are apart are the runs of what they cover. -/
theorem Apart.run {spans : List Span} (apart : Apart spans)
    (nonempty : ∀ span ∈ spans, span.start < span.stop) {span : Span}
    (member : span ∈ spans) : Run (Covers spans) span := by
  have own := nonempty span member
  refine ⟨own, fun position inside => ⟨span, member, inside⟩, ?_, ?_⟩
  · intro position next covered
    obtain ⟨other, inside, first, last⟩ := covered
    by_cases same : other = span
    · subst same
      omega
    · have apartness := apart.disjoint inside member same
      omega
  · intro covered
    obtain ⟨other, inside, first, last⟩ := covered
    by_cases same : other = span
    · subst same
      omega
    · have apartness := apart.disjoint inside member same
      omega

theorem Apart.mem_iff_run {spans : List Span} (apart : Apart spans)
    (nonempty : ∀ span ∈ spans, span.start < span.stop) {span : Span} :
    span ∈ spans ↔ Run (Covers spans) span := by
  constructor
  · exact apart.run nonempty
  · intro run
    have first : span.Contains span.start := ⟨Nat.le_refl _, run.nonempty⟩
    obtain ⟨other, member, contains⟩ := run.within span.start first
    rwa [run.eq_of_contains (apart.run nonempty member) first contains]

theorem Apart.eq_of_mem_iff {left right : List Span} (first : Apart left)
    (second : Apart right) (forward : ∀ span ∈ left, span.start ≤ span.stop)
    (same : ∀ span, span ∈ left ↔ span ∈ right) : left = right := by
  have distinct : ∀ {spans : List Span}, Apart spans →
      (∀ span ∈ spans, span.start ≤ span.stop) → spans.Nodup := by
    intro spans apart forward
    refine apart.imp_of_mem ?_
    intro earlier later member _ before equal
    subst equal
    have wide := forward earlier member
    omega
  have back : ∀ span ∈ right, span.start ≤ span.stop :=
    fun span member => forward span ((same span).mpr member)
  refine List.Perm.eq_of_pairwise ?_ first second
    ((List.perm_ext_iff_of_nodup (distinct first forward) (distinct second back)).mpr same)
  intro earlier later member inside before after
  have wide := forward earlier member
  have other := back later inside
  omega

/-! A text with spans of it replaced. -/

variable {α : Type*}

/-- From a position on, a text and what becomes of it when spans are replaced, each by
one mask, and everything between them is kept. -/
inductive Replaced (mask : List α) : Nat → List Span → List α → List α → Prop
  | rest {position : Nat} {text : List α} : Replaced mask position [] text text
  | cut {position : Nat} {span : Span} {spans : List Span}
      {kept hidden text output : List α}
      (before : position + kept.length = span.start)
      (within : span.start + hidden.length = span.stop)
      (after : Replaced mask span.stop spans text output) :
      Replaced mask position (span :: spans) (kept ++ hidden ++ text)
        (kept ++ mask ++ output)

theorem Replaced.unique {mask : List α} {position : Nat} {spans : List Span}
    {text first second : List α} (left : Replaced mask position spans text first)
    (right : Replaced mask position spans text second) : first = second := by
  induction left generalizing second with
  | rest =>
      cases right
      rfl
  | @cut position span spans kept hidden text output before within after induction =>
      generalize whole : kept ++ hidden ++ text = source at right
      cases right with
      | @cut _ _ _ other held rest shown start width further =>
          rw [List.append_assoc, List.append_assoc] at whole
          obtain ⟨rfl, remaining⟩ := List.append_inj whole (by omega)
          obtain ⟨rfl, rfl⟩ := List.append_inj remaining (by omega)
          rw [induction further]

end Cuprum.Spans
