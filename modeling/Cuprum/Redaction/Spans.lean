import Cuprum.Redaction.Policy

namespace Cuprum.Redaction

open Spans Text

/-! Where the rules match. -/

def Occurs (literal value : List CodePoint) (start : Nat) : Prop :=
  literal <+: value.drop start

theorem Occurs.le_length {literal value : List CodePoint} {start : Nat}
    (occurs : Occurs literal value start) (nonempty : literal ≠ []) :
    start + literal.length ≤ value.length := by
  have positive := List.length_pos_iff.mpr nonempty
  have room := List.IsPrefix.length_le occurs
  rw [List.length_drop] at room
  omega

theorem find_eq_some {value literal : List CodePoint} {searchFrom start : Nat}
    (found : find value literal searchFrom = some start) :
    Occurs literal value start ∧
      ∀ earlier, searchFrom ≤ earlier → earlier < start → ¬ Occurs literal value earlier := by
  rw [find, List.find?_range'_eq_some] at found
  obtain ⟨occurs, _, first⟩ := found
  refine ⟨List.isPrefixOf_iff_prefix.mp occurs, fun earlier least before other => ?_⟩
  have none := first earlier least before
  rw [List.isPrefixOf_iff_prefix.mpr other] at none
  cases none

theorem find_eq_none {value literal : List CodePoint} {searchFrom : Nat}
    (missing : find value literal searchFrom = none) (nonempty : literal ≠ []) {start : Nat}
    (least : searchFrom ≤ start) : ¬ Occurs literal value start := by
  intro occurs
  have room := occurs.le_length nonempty
  rw [find, List.find?_range'_eq_none] at missing
  have none := missing start least (by omega)
  rw [List.isPrefixOf_iff_prefix.mpr occurs] at none
  cases none

theorem mem_literalMatchSpans {literal value : List CodePoint} (nonempty : literal ≠ [])
    (searchFrom : Nat) (span : Span) :
    span ∈ literalMatchSpans literal value searchFrom ↔
      ∃ start, searchFrom ≤ start ∧ Occurs literal value start ∧
        span = ⟨start, start + literal.length⟩ := by
  fun_induction literalMatchSpans literal value searchFrom with
  | case1 searchFrom room missing =>
      refine iff_of_false List.not_mem_nil ?_
      intro occurrence
      obtain ⟨start, least, occurs, _⟩ := occurrence
      exact find_eq_none missing nonempty least occurs
  | case2 searchFrom room start found induction =>
      obtain ⟨occurs, first⟩ := find_eq_some found
      have least := (find_ge found).1
      rw [List.mem_cons, induction]
      constructor
      · intro member
        rcases member with rfl | ⟨later, after, again, rfl⟩
        · exact ⟨start, least, occurs, rfl⟩
        · exact ⟨later, by omega, again, rfl⟩
      · intro occurrence
        obtain ⟨other, from_, again, rfl⟩ := occurrence
        rcases Nat.lt_trichotomy other start with before | rfl | after
        · exact absurd again (first other from_ before)
        · exact .inl rfl
        · exact .inr ⟨other, after, again, rfl⟩
  | case3 searchFrom short =>
      refine iff_of_false List.not_mem_nil ?_
      intro occurrence
      obtain ⟨start, least, occurs, _⟩ := occurrence
      have room := occurs.le_length nonempty
      omega

theorem collectRuleSpans_ok {Rule : Type} {matcher : Rule → Except String (List Span)}
    {ruleKind : RuleKind} {rules : List Rule}
    (finds : ∀ rule ∈ rules, ∃ spans, matcher rule = .ok spans) (index : Nat) :
    ∃ spans, collectRuleSpans matcher ruleKind index rules = .ok spans ∧
      ∀ span, span ∈ spans ↔
        ∃ rule ∈ rules, ∃ found, matcher rule = .ok found ∧ span ∈ found := by
  induction rules generalizing index with
  | nil => exact ⟨[], rfl, by simp⟩
  | cons rule rules induction =>
      obtain ⟨⟨found, first⟩, others⟩ := List.forall_mem_cons.mp finds
      obtain ⟨spans, rest, members⟩ := induction others (index + 1)
      refine ⟨found ++ spans, by rw [collectRuleSpans, first]; simp [rest, Except.map], ?_⟩
      intro span
      rw [List.mem_append, members, List.exists_mem_cons_iff]
      simp [first]

theorem collectRuleSpans_error {Rule : Type} {matcher : Rule → Except String (List Span)}
    {ruleKind : RuleKind} {rules : List Rule} {index : Nat} {error : RedactionError}
    (failed : collectRuleSpans matcher ruleKind index rules = .error error) :
    ∃ before rule after, rules = before ++ rule :: after ∧
      (∀ earlier ∈ before, ∃ spans, matcher earlier = .ok spans) ∧
      matcher rule = .error error.errorType ∧
      error = ⟨ruleKind, index + before.length, error.errorType⟩ := by
  induction rules generalizing index with
  | nil => cases failed
  | cons rule rules induction =>
      rw [collectRuleSpans] at failed
      cases found : matcher rule with
      | error errorType =>
          rw [found] at failed
          cases failed
          exact ⟨[], rule, rules, rfl, nofun, found, rfl⟩
      | ok spans =>
          rw [found] at failed
          dsimp only at failed
          cases rest : collectRuleSpans matcher ruleKind (index + 1) rules with
          | ok others =>
              rw [rest] at failed
              cases failed
          | error other =>
              rw [rest] at failed
              cases failed
              obtain ⟨before, rule', after, split, passed, fails, named⟩ := induction rest
              refine ⟨rule :: before, rule', after, by rw [split]; rfl, ?_, fails, ?_⟩
              · exact List.forall_mem_cons.mpr ⟨⟨spans, found⟩, passed⟩
              · rw [List.length_cons, Nat.add_comm before.length, ← Nat.add_assoc]
                exact named

/-! The merge of nonempty spans. -/

/-- What the merge has made of the spans it has read. -/
structure Merged (done merged : List Span) : Prop where
  nonempty : ∀ span ∈ merged, span.start < span.stop
  apart : Apart merged
  covers : ∀ position, Covers merged position ↔ Covers done position
  starts : ∀ span ∈ merged, ∃ other ∈ done, other.start = span.start

theorem Merged.initial : Merged [] [] :=
  ⟨nofun, .nil, fun _ => Iff.rfl, nofun⟩

theorem mergeSpan_concat (front : List Span) (previous span : Span) :
    mergeSpan (front ++ [previous]) span =
      if span.start ≤ previous.stop then
        front ++ [⟨previous.start, max previous.stop span.stop⟩]
      else front ++ [previous] ++ [span] := by
  simp [mergeSpan]

theorem Merged.next {done merged : List Span} (state : Merged done merged) {span : Span}
    (nonempty : span.start < span.stop)
    (later : ∀ other ∈ done, other.start ≤ span.start) :
    Merged (done ++ [span]) (mergeSpan merged span) := by
  rcases List.eq_nil_or_concat merged with rfl | ⟨front, previous, rfl⟩
  · refine ⟨?_, List.pairwise_singleton _ _, ?_, ?_⟩
    · intro other member
      obtain rfl := List.mem_singleton.mp member
      exact nonempty
    · intro position
      have none := state.covers position
      rw [covers_append, ← none]
      simp [Covers, mergeSpan]
    · intro other member
      obtain rfl := List.mem_singleton.mp member
      exact ⟨other, List.mem_append_right _ List.mem_cons_self, rfl⟩
  · rw [List.concat_eq_append] at state ⊢
    have last : previous ∈ front ++ [previous] := List.mem_append_right _ List.mem_cons_self
    have wide := state.nonempty previous last
    obtain ⟨origin, known, begins⟩ := state.starts previous last
    have order := later origin known
    obtain ⟨apart, _, before⟩ := List.pairwise_append.mp state.apart
    rw [mergeSpan_concat]
    split
    next touches =>
      refine ⟨?_, ?_, ?_, ?_⟩
      · intro other member
        rcases List.mem_append.mp member with inside | extended
        · exact state.nonempty other (List.mem_append_left _ inside)
        · obtain rfl := List.mem_singleton.mp extended
          exact Nat.lt_of_lt_of_le wide (Nat.le_max_left _ _)
      · refine List.pairwise_append.mpr ⟨apart, List.pairwise_singleton _ _, ?_⟩
        intro earlier inside extended equal
        obtain rfl := List.mem_singleton.mp equal
        exact before earlier inside previous List.mem_cons_self
      · intro position
        rw [covers_append, @covers_append done, ← state.covers, covers_append,
          covers_singleton, covers_singleton, covers_singleton, or_assoc]
        apply or_congr_right
        simp only [Span.Contains]
        omega
      · intro other member
        rcases List.mem_append.mp member with inside | extended
        · obtain ⟨source, listed, same⟩ := state.starts other (List.mem_append_left _ inside)
          exact ⟨source, List.mem_append_left _ listed, same⟩
        · obtain rfl := List.mem_singleton.mp extended
          exact ⟨origin, List.mem_append_left _ known, begins⟩
    next separate =>
      refine ⟨?_, ?_, ?_, ?_⟩
      · intro other member
        rcases List.mem_append.mp member with inside | added
        · exact state.nonempty other inside
        · obtain rfl := List.mem_singleton.mp added
          exact nonempty
      · refine List.pairwise_append.mpr ⟨state.apart, List.pairwise_singleton _ _, ?_⟩
        intro earlier inside added equal
        obtain rfl := List.mem_singleton.mp equal
        rcases List.mem_append.mp inside with other | same
        · have gap := before earlier other previous List.mem_cons_self
          omega
        · obtain rfl := List.mem_singleton.mp same
          omega
      · intro position
        rw [covers_append, state.covers, covers_append]
      · intro other member
        rcases List.mem_append.mp member with inside | added
        · obtain ⟨source, listed, same⟩ := state.starts other inside
          exact ⟨source, List.mem_append_left _ listed, same⟩
        · obtain rfl := List.mem_singleton.mp added
          exact ⟨other, List.mem_append_right _ List.mem_cons_self, rfl⟩

theorem foldl_mergeSpan {done merged : List Span} (state : Merged done merged)
    {spans : List Span} (nonempty : ∀ span ∈ spans, span.start < span.stop)
    (ordered : (done ++ spans).Pairwise fun first second => first.start ≤ second.start) :
    Merged (done ++ spans) (spans.foldl mergeSpan merged) := by
  induction spans generalizing done merged with
  | nil => rwa [List.append_nil]
  | cons span spans induction =>
      obtain ⟨first, others⟩ := List.forall_mem_cons.mp nonempty
      have onward : done ++ span :: spans = done ++ [span] ++ spans := by simp
      have later : ∀ other ∈ done, other.start ≤ span.start := fun other member =>
        (List.pairwise_append.mp ordered).2.2 other member span List.mem_cons_self
      rw [List.foldl_cons, onward]
      rw [onward] at ordered
      exact induction (state.next first later) others ordered

theorem mergeNonzeroSpans_merged {spans : List Span}
    (nonempty : ∀ span ∈ spans, span.start < span.stop)
    (ordered : spans.Pairwise fun first second => first.start ≤ second.start) :
    Merged spans (mergeNonzeroSpans spans) := by
  have merged := foldl_mergeSpan Merged.initial nonempty (by rwa [List.nil_append])
  rwa [List.nil_append] at merged

/-! The zero-width matches. -/

theorem bisectRight_cons_of_le {start position : Nat} (le : start ≤ position)
    (starts : List Nat) :
    bisectRight (start :: starts) position = bisectRight starts position + 1 := by
  simp [bisectRight, le]

theorem bisectRight_cons_of_lt {start position : Nat} (lt : position < start)
    (starts : List Nat) : bisectRight (start :: starts) position = 0 := by
  simp [bisectRight, Nat.not_le_of_lt lt]

theorem isStandalone_iff {spans : List Span} (apart : Apart spans)
    (forward : ∀ span ∈ spans, span.start ≤ span.stop) (position : Nat) :
    isStandalone spans position = true ↔
      ∀ span ∈ spans, position < span.start ∨ span.stop < position := by
  induction spans with
  | nil => simp [isStandalone, bisectRight]
  | cons span spans induction =>
      obtain ⟨after, rest⟩ := List.pairwise_cons.mp apart
      obtain ⟨wide, others⟩ := List.forall_mem_cons.mp forward
      have induction := induction rest others
      rw [List.forall_mem_cons]
      rcases Nat.lt_or_ge position span.start with before | reached
      · have none : isStandalone (span :: spans) position = true := by
          simp [isStandalone, bisectRight_cons_of_lt before]
        refine iff_of_true none ⟨.inl before, fun other member => .inl ?_⟩
        have gap := after other member
        omega
      · cases found : bisectRight (spans.map Span.start) position with
        | zero =>
            have last : isStandalone (span :: spans) position = decide (span.stop < position) := by
              simp [isStandalone, bisectRight_cons_of_le reached, found]
            have tail : isStandalone spans position = true := by
              simp [isStandalone, found]
            rw [last, decide_eq_true_eq, ← induction, and_iff_left tail]
            omega
        | succ index =>
            have same : isStandalone (span :: spans) position = isStandalone spans position := by
              simp [isStandalone, bisectRight_cons_of_le reached, found]
            have passed : span.stop < position := by
              cases spans with
              | nil => cases found
              | cons next spans =>
                  have gap := after next List.mem_cons_self
                  rcases Nat.lt_or_ge position next.start with short | enough
                  · rw [List.map_cons, bisectRight_cons_of_lt short] at found
                    cases found
                  · omega
            rw [same, induction, and_iff_right (.inr passed)]

/-! The merge of all spans. -/

theorem spanLe_sorted (spans : List Span) :
    (spans.mergeSort spanLe).Pairwise fun first second => spanLe first second = true := by
  apply List.pairwise_mergeSort
  · intro first second third
    simp only [spanLe, Bool.or_eq_true, Bool.and_eq_true, decide_eq_true_eq, beq_iff_eq]
    omega
  · intro first second
    simp only [spanLe, Bool.or_eq_true, Bool.and_eq_true, decide_eq_true_eq, beq_iff_eq]
    omega

theorem start_le_of_spanLe {first second : Span} (le : spanLe first second = true) :
    first.start ≤ second.start := by
  simp only [spanLe, Bool.or_eq_true, Bool.and_eq_true, decide_eq_true_eq,
    beq_iff_eq] at le
  omega

theorem covers_nonzero (spans : List Span) (position : Nat) :
    Covers (spans.filter fun span => span.start != span.stop) position ↔
      Covers spans position := by
  constructor
  · intro covered
    obtain ⟨span, member, inside⟩ := covered
    exact ⟨span, (List.mem_filter.mp member).1, inside⟩
  · intro covered
    obtain ⟨span, member, first, last⟩ := covered
    refine ⟨span, List.mem_filter.mpr ⟨member, ?_⟩, first, last⟩
    rw [bne_iff_ne]
    omega

theorem apart_mergeSort {spans : List Span} (distinct : spans.Nodup)
    (forward : ∀ span ∈ spans, span.start ≤ span.stop)
    (separate : ∀ first ∈ spans, ∀ second ∈ spans, first ≠ second →
      first.stop < second.start ∨ second.stop < first.start) :
    Apart (spans.mergeSort spanLe) := by
  have different : (spans.mergeSort spanLe).Nodup :=
    (List.mergeSort_perm spans spanLe).nodup_iff.mpr distinct
  refine ((spanLe_sorted spans).and different).imp_of_mem ?_
  intro first second left right ordered
  rw [List.mem_mergeSort] at left right
  have before := start_le_of_spanLe ordered.1
  have wide := forward second right
  have apart := separate first left second right ordered.2
  omega

theorem mem_standaloneZeroWidthSpans {positions : List Nat} {nonzeroSpans : List Span}
    (apart : Apart nonzeroSpans)
    (nonempty : ∀ span ∈ nonzeroSpans, span.start < span.stop) (span : Span) :
    span ∈ standaloneZeroWidthSpans positions nonzeroSpans ↔
      span.start = span.stop ∧ span.start ∈ positions ∧
        Untouched (Covers nonzeroSpans) span.start := by
  have standalone := isStandalone_iff apart fun span member =>
    Nat.le_of_lt (nonempty span member)
  simp only [standaloneZeroWidthSpans, List.mem_map, List.mem_filter, standalone,
    untouched_iff nonempty]
  constructor
  · intro member
    obtain ⟨position, ⟨listed, untouched⟩, rfl⟩ := member
    exact ⟨rfl, listed, untouched⟩
  · intro member
    obtain ⟨empty, listed, untouched⟩ := member
    exact ⟨span.start, ⟨listed, untouched⟩, Span.ext rfl empty⟩

/-- Spans that are apart stay so with zero-width ones that touch none of them. -/
theorem apart_with_standalone {nonzeroSpans : List Span} {positions : List Nat}
    (apart : Apart nonzeroSpans)
    (nonempty : ∀ span ∈ nonzeroSpans, span.start < span.stop)
    (distinct : positions.Nodup) :
    Apart ((nonzeroSpans ++ standaloneZeroWidthSpans positions nonzeroSpans).mergeSort
      spanLe) := by
  have members := @mem_standaloneZeroWidthSpans positions nonzeroSpans apart nonempty
  have outside : ∀ run ∈ nonzeroSpans,
      ∀ span ∈ standaloneZeroWidthSpans positions nonzeroSpans,
        span.start = span.stop ∧ (span.start < run.start ∨ run.stop < span.start) := by
    intro run listed span member
    obtain ⟨empty, _, untouched⟩ := (members span).mp member
    exact ⟨empty, (untouched_iff nonempty _).mpr untouched run listed⟩
  apply apart_mergeSort
  · refine List.nodup_append.mpr ⟨?_, ?_, ?_⟩
    · refine apart.imp_of_mem ?_
      intro first second left _ before same
      subst same
      have wide := nonempty first left
      omega
    · exact (distinct.filter _).map fun first second same => congrArg Span.start same
    · intro run listed span member same
      subst same
      have wide := nonempty run listed
      have empty := (outside run listed run member).1
      omega
  · intro span member
    rcases List.mem_append.mp member with listed | zero
    · exact Nat.le_of_lt (nonempty span listed)
    · exact Nat.le_of_eq ((members span).mp zero).1
  · intro first left second right differ
    rcases List.mem_append.mp left with run | zero
    · rcases List.mem_append.mp right with other | empty
      · exact apart.disjoint run other differ
      · have gap := outside first run second empty
        omega
    · rcases List.mem_append.mp right with run | empty
      · have gap := outside second run first zero
        omega
      · have one := ((members first).mp zero).1
        have two := ((members second).mp empty).1
        have apartness : first.start ≠ second.start := fun same =>
          differ (Span.ext same (by omega))
        omega

/-- The merged spans are the runs of what the matches cover, and the zero-width matches
that touch none of them. -/
theorem mergeOverlappingSpans_cuts {spans : List Span}
    (forward : ∀ span ∈ spans, span.start ≤ span.stop) :
    Apart (mergeOverlappingSpans spans) ∧
      ∀ span, span ∈ mergeOverlappingSpans spans ↔
        Run (Covers spans) span ∨
          span.start = span.stop ∧ span ∈ spans ∧ Untouched (Covers spans) span.start := by
  have nonempty : ∀ span ∈ (spans.mergeSort spanLe).filter fun span =>
      span.start != span.stop, span.start < span.stop := by
    intro span member
    obtain ⟨listed, differ⟩ := List.mem_filter.mp member
    rw [bne_iff_ne] at differ
    exact Nat.lt_of_le_of_ne (forward span (List.mem_mergeSort.mp listed)) differ
  have ordered : ((spans.mergeSort spanLe).filter fun span =>
      span.start != span.stop).Pairwise fun first second => first.start ≤ second.start :=
    ((spanLe_sorted spans).imp start_le_of_spanLe).filter _
  have merged := mergeNonzeroSpans_merged nonempty ordered
  have covers : Covers (mergeNonzeroSpans ((spans.mergeSort spanLe).filter fun span =>
      span.start != span.stop)) = Covers spans := by
    funext position
    rw [merged.covers position, covers_nonzero]
    exact propext (covers_congr fun span => List.mem_mergeSort)
  refine ⟨apart_with_standalone merged.apart merged.nonempty (List.nodup_dedup _), ?_⟩
  intro span
  simp only [mergeOverlappingSpans, List.mem_mergeSort, List.mem_append,
    merged.apart.mem_iff_run merged.nonempty,
    mem_standaloneZeroWidthSpans merged.apart merged.nonempty, covers, List.mem_dedup,
    List.mem_map, List.mem_filter, beq_iff_eq]
  apply or_congr_right
  constructor
  · intro zero
    obtain ⟨empty, ⟨other, ⟨listed, same⟩, begins⟩, untouched⟩ := zero
    have equal : other = span := Span.ext begins (by omega)
    exact ⟨empty, equal ▸ listed, untouched⟩
  · intro zero
    obtain ⟨empty, listed, untouched⟩ := zero
    exact ⟨empty, ⟨span, ⟨listed, empty⟩, rfl⟩, untouched⟩

end Cuprum.Redaction
