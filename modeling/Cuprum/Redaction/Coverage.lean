import Cuprum.Redaction.Spans

namespace Cuprum.Redaction

open Spans Text

/-! What is to be covered, and the text with it covered. -/

/-- A position that some occurrence of a literal or some match of a pattern covers. -/
def Sensitive (literals : List (List CodePoint)) (patterns : List Pattern)
    (value : List CodePoint) (position : Nat) : Prop :=
  (∃ literal ∈ literals, ∃ start, Occurs literal value start ∧
      start ≤ position ∧ position < start + literal.length) ∨
    ∃ pattern ∈ patterns, ∃ spans, pattern.finditer value = .ok spans ∧
      Covers spans position

def EmptyMatch (patterns : List Pattern) (value : List CodePoint) (position : Nat) : Prop :=
  ∃ pattern ∈ patterns, ∃ spans, pattern.finditer value = .ok spans ∧
    ⟨position, position⟩ ∈ spans

/-- The text with each run of sensitive positions and each zero-width match outside them
replaced by one mask. -/
def RedactedAs (sensitive emptyMatch : Nat → Prop) (mask value output : List CodePoint) :
    Prop :=
  ∃ cuts, Apart cuts ∧
    (∀ span, span ∈ cuts ↔ Run sensitive span ∨
      span.start = span.stop ∧ emptyMatch span.start ∧ Untouched sensitive span.start) ∧
    Replaced mask 0 cuts value output

theorem RedactedAs.unique {sensitive emptyMatch : Nat → Prop}
    {mask value first second : List CodePoint}
    (left : RedactedAs sensitive emptyMatch mask value first)
    (right : RedactedAs sensitive emptyMatch mask value second) : first = second := by
  obtain ⟨cuts, apart, members, replaced⟩ := left
  obtain ⟨others, aside, same, again⟩ := right
  have forward : ∀ span ∈ cuts, span.start ≤ span.stop := by
    intro span member
    rcases (members span).mp member with run | empty
    · exact Nat.le_of_lt run.nonempty
    · exact Nat.le_of_eq empty.1
  obtain rfl := apart.eq_of_mem_iff aside forward fun span =>
    (members span).trans (same span).symm
  exact replaced.unique again

theorem sensitive_perm {literals reordered : List (List CodePoint)}
    {patterns others : List Pattern} (first : reordered.Perm literals)
    (second : others.Perm patterns) (value : List CodePoint) :
    Sensitive reordered others value = Sensitive literals patterns value := by
  funext position
  simp only [Sensitive, first.mem_iff, second.mem_iff]

theorem emptyMatch_perm {patterns others : List Pattern} (second : others.Perm patterns)
    (value : List CodePoint) : EmptyMatch others value = EmptyMatch patterns value := by
  funext position
  simp only [EmptyMatch, second.mem_iff]

/-! The pieces of the redacted text. -/

theorem slice_length {value : List CodePoint} {start stop : Nat}
    (inside : stop ≤ value.length) : (slice value start stop).length = stop - start := by
  rw [slice, List.length_drop, List.length_take, Nat.min_eq_left inside]

theorem drop_eq_slice_append {value : List CodePoint} {start stop : Nat}
    (le : start ≤ stop) : value.drop start = slice value start stop ++ value.drop stop := by
  have whole : value.drop start = (value.drop start).take (stop - start) ++
      (value.drop start).drop (stop - start) := (List.take_append_drop _ _).symm
  rw [whole, slice, List.drop_take, List.drop_drop, Nat.add_sub_cancel' le]

theorem pieces_replaced {value mask : List CodePoint} {cuts : List Span} {cursor : Nat}
    (apart : Apart cuts) (later : ∀ span ∈ cuts, cursor ≤ span.start)
    (within : ∀ span ∈ cuts, span.start ≤ span.stop ∧ span.stop ≤ value.length) :
    Replaced mask cursor cuts (value.drop cursor) (pieces value mask cursor cuts).flatten := by
  induction cuts generalizing cursor with
  | nil =>
      simp only [pieces, List.flatten_cons, List.flatten_nil, List.append_nil]
      exact .rest
  | cons span cuts induction =>
      obtain ⟨after, apart⟩ := List.pairwise_cons.mp apart
      obtain ⟨least, _⟩ := List.forall_mem_cons.mp later
      obtain ⟨⟨wide, inside⟩, within⟩ := List.forall_mem_cons.mp within
      have rest := induction apart (fun other member => Nat.le_of_lt (after other member))
        within
      rw [pieces, List.flatten_cons, List.flatten_cons, ← List.append_assoc,
        drop_eq_slice_append least, drop_eq_slice_append wide, ← List.append_assoc]
      apply Replaced.cut
      · rw [slice_length (wide.trans inside)]
        omega
      · rw [slice_length inside]
        omega
      · exact rest

/-! The redaction of a text. -/

/-- A pattern whose matches lie within the text. -/
def Pattern.Finds (pattern : Pattern) (value : List CodePoint) : Prop :=
  ∃ spans, pattern.finditer value = .ok spans ∧
    ∀ span ∈ spans, span.start ≤ span.stop ∧ span.stop ≤ value.length

theorem redactionPolicy_ok {literals : List (List CodePoint)} (nonempty : [] ∉ literals)
    (patterns : List Pattern) (mask : List CodePoint) :
    ∃ policy, redactionPolicy literals patterns mask = .ok policy ∧
      policy.literals.Perm literals ∧ policy.patterns = patterns ∧ policy.mask = mask := by
  have full : ¬ literals.any List.isEmpty = true := by
    intro some
    obtain ⟨literal, member, empty⟩ := List.any_eq_true.mp some
    exact nonempty (List.isEmpty_iff.mp empty ▸ member)
  unfold redactionPolicy
  split
  next error failed =>
    rw [normalizeLiterals, if_neg full] at failed
    cases failed
  next normalized normal =>
    refine ⟨_, rfl, ?_, rfl, rfl⟩
    rw [normalizeLiterals, if_neg full] at normal
    cases normal
    exact List.mergeSort_perm _ _

theorem collected_literals (policy : RedactionPolicy) (value : List CodePoint) :
    ∃ spans, collectRuleSpans (fun literal => .ok (literalMatchSpans literal value 0))
        .literal 0 policy.literals = .ok spans ∧
      ∀ span, span ∈ spans ↔ ∃ literal ∈ policy.literals, ∃ start,
        Occurs literal value start ∧ span = ⟨start, start + literal.length⟩ := by
  obtain ⟨spans, collected, members⟩ := @collectRuleSpans_ok _
    (fun literal => .ok (literalMatchSpans literal value 0)) .literal policy.literals
    (fun literal _ => ⟨_, rfl⟩) 0
  refine ⟨spans, collected, fun span => (members span).trans ?_⟩
  apply exists_congr
  intro literal
  apply and_congr_right
  intro listed
  have occurrences := @mem_literalMatchSpans literal value (policy.nonempty literal listed)
    0 span
  constructor
  · intro found
    obtain ⟨_, same, member⟩ := found
    cases same
    obtain ⟨start, _, occurs⟩ := occurrences.mp member
    exact ⟨start, occurs⟩
  · intro occurs
    obtain ⟨start, occurs⟩ := occurs
    exact ⟨_, rfl, occurrences.mpr ⟨start, Nat.zero_le _, occurs⟩⟩

/-- The spans a policy finds cover the sensitive positions. -/
theorem collected_spans (policy : RedactionPolicy) {value : List CodePoint}
    (finds : ∀ pattern ∈ policy.patterns, pattern.Finds value) :
    ∃ literalSpans patternSpans,
      collectRuleSpans (fun literal => .ok (literalMatchSpans literal value 0)) .literal 0
        policy.literals = .ok literalSpans ∧
      collectRuleSpans (patternMatchSpans · value) .pattern 0 policy.patterns =
        .ok patternSpans ∧
      (∀ span ∈ literalSpans ++ patternSpans,
        span.start ≤ span.stop ∧ span.stop ≤ value.length) ∧
      (∀ position, Covers (literalSpans ++ patternSpans) position ↔
        Sensitive policy.literals policy.patterns value position) ∧
      ∀ position, ⟨position, position⟩ ∈ literalSpans ++ patternSpans ↔
        EmptyMatch policy.patterns value position := by
  obtain ⟨literalSpans, literals, occurrences⟩ := collected_literals policy value
  obtain ⟨patternSpans, patterns, found⟩ := @collectRuleSpans_ok _
    (patternMatchSpans · value) .pattern policy.patterns
    (fun pattern member => (finds pattern member).imp fun _ => And.left) 0
  refine ⟨literalSpans, patternSpans, literals, patterns, ?_, ?_, ?_⟩
  · intro span member
    rcases List.mem_append.mp member with occurrence | matched
    · obtain ⟨literal, listed, start, occurs, rfl⟩ := (occurrences span).mp occurrence
      exact ⟨Nat.le_add_right _ _, occurs.le_length (policy.nonempty literal listed)⟩
    · obtain ⟨pattern, listed, spans, ran, inside⟩ := (found span).mp matched
      obtain ⟨others, again, bounds⟩ := finds pattern listed
      cases ran.symm.trans again
      exact bounds span inside
  · intro position
    rw [covers_append]
    apply or_congr
    · constructor
      · intro covered
        obtain ⟨span, member, inside⟩ := covered
        obtain ⟨literal, listed, start, occurs, rfl⟩ := (occurrences span).mp member
        exact ⟨literal, listed, start, occurs, inside⟩
      · intro sensitive
        obtain ⟨literal, listed, start, occurs, inside⟩ := sensitive
        exact ⟨_, (occurrences _).mpr ⟨literal, listed, start, occurs, rfl⟩, inside⟩
    · constructor
      · intro covered
        obtain ⟨span, member, inside⟩ := covered
        obtain ⟨pattern, listed, spans, ran, within⟩ := (found span).mp member
        exact ⟨pattern, listed, spans, ran, span, within, inside⟩
      · intro sensitive
        obtain ⟨pattern, listed, spans, ran, span, within, inside⟩ := sensitive
        exact ⟨span, (found span).mpr ⟨pattern, listed, spans, ran, within⟩, inside⟩
  · intro position
    rw [List.mem_append, found]
    refine or_iff_right ?_
    intro occurrence
    obtain ⟨literal, listed, start, occurs, same⟩ := (occurrences _).mp occurrence
    rw [Span.mk.injEq] at same
    have positive := List.length_pos_iff.mpr (policy.nonempty literal listed)
    omega

theorem pieces_nil (value mask : List CodePoint) : (pieces value mask 0 []).flatten = value := by
  simp [pieces]

theorem applyText_eq (policy : RedactionPolicy) {value : List CodePoint}
    {literalSpans patternSpans : List Span}
    (literals : collectRuleSpans (fun literal => .ok (literalMatchSpans literal value 0))
      .literal 0 policy.literals = .ok literalSpans)
    (patterns : collectRuleSpans (patternMatchSpans · value) .pattern 0 policy.patterns =
      .ok patternSpans) :
    policy.applyText value = .ok (pieces value policy.mask 0
      (mergeOverlappingSpans (literalSpans ++ patternSpans))).flatten := by
  unfold RedactionPolicy.applyText
  split
  next none =>
    rw [Bool.and_eq_true, List.isEmpty_iff, List.isEmpty_iff] at none
    rw [none.1] at literals
    rw [none.2] at patterns
    cases literals
    cases patterns
    have merged : mergeOverlappingSpans [] = [] := by
      simp [mergeOverlappingSpans, mergeNonzeroSpans, standaloneZeroWidthSpans]
    rw [List.append_nil, merged, pieces_nil]
  next =>
    rw [literals, patterns]
    simp only [bind, Except.bind, pure, Except.pure]
    split
    next none => rw [List.isEmpty_iff.mp none, pieces_nil]
    next => rfl

theorem applyText_redacted (policy : RedactionPolicy) {value : List CodePoint}
    (finds : ∀ pattern ∈ policy.patterns, pattern.Finds value) :
    ∃ output, policy.applyText value = .ok output ∧
      RedactedAs (Sensitive policy.literals policy.patterns value)
        (EmptyMatch policy.patterns value) policy.mask value output := by
  obtain ⟨literalSpans, patternSpans, literals, patterns, bounds, covers, zero⟩ :=
    collected_spans policy finds
  have forward : ∀ span ∈ literalSpans ++ patternSpans, span.start ≤ span.stop :=
    fun span member => (bounds span member).1
  obtain ⟨apart, members⟩ := mergeOverlappingSpans_cuts forward
  have same : Covers (literalSpans ++ patternSpans) =
      Sensitive policy.literals policy.patterns value := by
    funext position
    exact propext (covers position)
  have cuts : ∀ span, span ∈ mergeOverlappingSpans (literalSpans ++ patternSpans) ↔
      Run (Sensitive policy.literals policy.patterns value) span ∨
        span.start = span.stop ∧ EmptyMatch policy.patterns value span.start ∧
          Untouched (Sensitive policy.literals policy.patterns value) span.start := by
    intro span
    rw [members, same]
    apply or_congr_right
    apply and_congr_right
    intro empty
    rw [← zero]
    have pair : span = ⟨span.start, span.start⟩ := Span.ext rfl empty.symm
    rw [← pair]
  have inside : ∀ span ∈ mergeOverlappingSpans (literalSpans ++ patternSpans),
      span.start ≤ span.stop ∧ span.stop ≤ value.length := by
    intro span member
    rcases (members span).mp member with run | ⟨empty, listed, _⟩
    · refine ⟨Nat.le_of_lt run.nonempty, run.stop_le ?_⟩
      intro position covered
      obtain ⟨other, known, within⟩ := covered
      exact Nat.lt_of_lt_of_le within.2 (bounds other known).2
    · exact bounds span listed
  have replaced : Replaced policy.mask 0
      (mergeOverlappingSpans (literalSpans ++ patternSpans)) value
      (pieces value policy.mask 0
        (mergeOverlappingSpans (literalSpans ++ patternSpans))).flatten :=
    pieces_replaced apart (fun _ _ => Nat.zero_le _) inside
  exact ⟨_, applyText_eq policy literals patterns, _, apart, cuts, replaced⟩

/-- Redaction replaces each maximal run of sensitive positions by one mask and keeps the
rest of the text, in whatever order the rules are listed. -/
theorem redaction_covers_once (literals : List (List CodePoint)) (patterns : List Pattern)
    (mask value : List CodePoint) (nonempty : [] ∉ literals)
    (finds : ∀ pattern ∈ patterns, pattern.Finds value) :
    ∃ policy output, redactionPolicy literals patterns mask = .ok policy ∧
      policy.applyText value = .ok output ∧
      RedactedAs (Sensitive literals patterns value) (EmptyMatch patterns value) mask value
        output ∧
      ∀ reordered others, reordered.Perm literals → others.Perm patterns →
        ∃ other, redactionPolicy reordered others mask = .ok other ∧
          other.applyText value = .ok output := by
  obtain ⟨policy, made, first, rfl, rfl⟩ := redactionPolicy_ok nonempty patterns mask
  obtain ⟨output, applied, redacted⟩ := applyText_redacted policy finds
  rw [sensitive_perm first (.refl _)] at redacted
  refine ⟨policy, output, made, applied, redacted, ?_⟩
  intro reordered others left right
  have full : [] ∉ reordered := fun member => nonempty (left.mem_iff.mp member)
  obtain ⟨other, built, second, same, masked⟩ :=
    redactionPolicy_ok full others policy.mask
  subst same
  obtain ⟨result, ran, again⟩ := applyText_redacted other fun pattern member =>
    finds pattern (right.mem_iff.mp member)
  rw [masked, sensitive_perm (second.trans left) right, emptyMatch_perm right] at again
  rw [redacted.unique again]
  exact ⟨other, built, ran⟩

/-- The start of a text as a pattern. -/
def startPattern : Pattern :=
  ⟨fun _ => .ok [⟨0, 0⟩]⟩

/-- Overlapping occurrences of one literal, after a match of no width. -/
theorem redaction_covers_once_overlapping :
    ∃ policy output, redactionPolicy [[0x61, 0x61]] [startPattern] [0x23] = .ok policy ∧
      policy.applyText [0x78, 0x61, 0x61, 0x61] = .ok output ∧
      RedactedAs (Sensitive [[0x61, 0x61]] [startPattern] [0x78, 0x61, 0x61, 0x61])
        (EmptyMatch [startPattern] [0x78, 0x61, 0x61, 0x61]) [0x23]
        [0x78, 0x61, 0x61, 0x61] output := by
  have finds : ∀ pattern ∈ [startPattern], pattern.Finds [0x78, 0x61, 0x61, 0x61] := by
    intro pattern member
    obtain rfl := List.mem_singleton.mp member
    exact ⟨_, rfl, by simp⟩
  obtain ⟨policy, output, made, applied, redacted, _⟩ :=
    redaction_covers_once [[0x61, 0x61]] [startPattern] [0x23] [0x78, 0x61, 0x61, 0x61]
      (by simp) finds
  exact ⟨policy, output, made, applied, redacted⟩

end Cuprum.Redaction
