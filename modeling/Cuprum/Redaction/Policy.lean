import Cuprum.Spans.Runs
import Cuprum.Text.CodePoint
import Mathlib.Data.List.Dedup

namespace Cuprum.Redaction

open Spans Text

/-- A compiled regular expression, by the spans its `finditer` gives or the class name
of what it raises. -/
structure Pattern where
  finditer : List CodePoint → Except String (List Span)

inductive RuleKind
  | literal
  | pattern
  deriving DecidableEq

/-- A failed rule, told without the text it was applied to. -/
structure RedactionError where
  ruleKind : RuleKind
  ruleIndex : Nat
  errorType : String
  deriving DecidableEq

inductive ConfigurationError
  | literalsMustNotContainEmptyStrings
  deriving DecidableEq

/-- Longer literals come before their prefixes. -/
def normalizeLiterals (literals : List (List CodePoint)) :
    Except ConfigurationError (List (List CodePoint)) :=
  if literals.any List.isEmpty then .error .literalsMustNotContainEmptyStrings
  else .ok (literals.mergeSort fun first second => second.length ≤ first.length)

/-- `str.find`: the first position from `searchFrom` on at which the text occurs. -/
def find (value literal : List CodePoint) (searchFrom : Nat) : Option Nat :=
  (List.range' searchFrom (value.length + 1 - searchFrom)).find? fun start =>
    literal.isPrefixOf (value.drop start)

theorem find_ge {value literal : List CodePoint} {searchFrom start : Nat}
    (found : find value literal searchFrom = some start) :
    searchFrom ≤ start ∧ start ≤ value.length := by
  have member := List.mem_of_find?_eq_some found
  rw [List.mem_range'_1] at member
  omega

/-- The occurrences of a literal, those that overlap included. -/
def literalMatchSpans (literal value : List CodePoint) (searchFrom : Nat) : List Span :=
  if searchFrom + literal.length ≤ value.length then
    match found : find value literal searchFrom with
    | none => []
    | some start =>
        ⟨start, start + literal.length⟩ :: literalMatchSpans literal value (start + 1)
  else []
termination_by value.length + 1 - searchFrom
decreasing_by
  have bounds := find_ge found
  omega

def patternMatchSpans (pattern : Pattern) (value : List CodePoint) :
    Except String (List Span) :=
  pattern.finditer value

/-- The matches of the rules from the given index on, up to the first that fails. -/
def collectRuleSpans {Rule : Type} (matcher : Rule → Except String (List Span))
    (ruleKind : RuleKind) : Nat → List Rule → Except RedactionError (List Span)
  | _, [] => .ok []
  | index, rule :: rules =>
      match matcher rule with
      | .error errorType => .error ⟨ruleKind, index, errorType⟩
      | .ok spans => (collectRuleSpans matcher ruleKind (index + 1) rules).map (spans ++ ·)

/-- One step of the merge: a span that overlaps or abuts the last one extends it. -/
def mergeSpan (merged : List Span) (span : Span) : List Span :=
  match merged.getLast? with
  | some previous =>
      if span.start ≤ previous.stop then
        merged.dropLast ++ [⟨previous.start, max previous.stop span.stop⟩]
      else merged ++ [span]
  | none => merged ++ [span]

def mergeNonzeroSpans (spans : List Span) : List Span :=
  spans.foldl mergeSpan []

/-- `bisect.bisect_right` on an ascending list. -/
def bisectRight (starts : List Nat) (position : Nat) : Nat :=
  (starts.takeWhile (· ≤ position)).length

def isStandalone (nonzeroSpans : List Span) (position : Nat) : Bool :=
  match bisectRight (nonzeroSpans.map Span.start) position with
  | 0 => true
  | lastSpanIndex + 1 =>
      match nonzeroSpans[lastSpanIndex]? with
      | some last => last.stop < position
      | none => false

/-- The zero-width matches outside the boundaries of nonempty ones. -/
def standaloneZeroWidthSpans (positions : List Nat) (nonzeroSpans : List Span) :
    List Span :=
  (positions.filter (isStandalone nonzeroSpans)).map fun position => ⟨position, position⟩

/-- The order of pairs. -/
def spanLe (first second : Span) : Bool :=
  first.start < second.start || first.start == second.start && first.stop ≤ second.stop

def mergeOverlappingSpans (spans : List Span) : List Span :=
  let orderedSpans := spans.mergeSort spanLe
  let nonzeroSpans :=
    mergeNonzeroSpans (orderedSpans.filter fun span => span.start != span.stop)
  let zeroWidthPositions :=
    ((orderedSpans.filter fun span => span.start == span.stop).map Span.start).dedup
  (nonzeroSpans ++ standaloneZeroWidthSpans zeroWidthPositions nonzeroSpans).mergeSort spanLe

def slice (value : List CodePoint) (start stop : Nat) : List CodePoint :=
  (value.take stop).drop start

/-- What is kept and the masks, from a cursor on. -/
def pieces (value mask : List CodePoint) : Nat → List Span → List (List CodePoint)
  | cursor, [] => [value.drop cursor]
  | cursor, span :: spans =>
      slice value cursor span.start :: mask :: pieces value mask span.stop spans

/-- A policy whose literals have been normalized. -/
structure RedactionPolicy where
  literals : List (List CodePoint)
  patterns : List Pattern
  mask : List CodePoint
  nonempty : ∀ literal ∈ literals, literal ≠ []
  longestFirst : literals.Pairwise fun first second => second.length ≤ first.length

theorem normalizeLiterals_nonempty {literals normalized : List (List CodePoint)}
    (normal : normalizeLiterals literals = .ok normalized) :
    ∀ literal ∈ normalized, literal ≠ [] := by
  intro literal member empty
  unfold normalizeLiterals at normal
  split at normal
  next => cases normal
  next full =>
    cases normal
    rw [List.mem_mergeSort] at member
    exact full (List.any_eq_true.mpr ⟨literal, member, List.isEmpty_iff.mpr empty⟩)

theorem normalizeLiterals_longestFirst {literals normalized : List (List CodePoint)}
    (normal : normalizeLiterals literals = .ok normalized) :
    normalized.Pairwise fun first second => second.length ≤ first.length := by
  unfold normalizeLiterals at normal
  split at normal
  next => cases normal
  next =>
    cases normal
    have sorted := @List.pairwise_mergeSort _
      (fun first second : List CodePoint => second.length ≤ first.length)
      (by simp; omega) (by simp; omega) literals
    exact sorted.imp of_decide_eq_true

def redactionPolicy (literals : List (List CodePoint)) (patterns : List Pattern)
    (mask : List CodePoint) : Except ConfigurationError RedactionPolicy :=
  match normal : normalizeLiterals literals with
  | .error error => .error error
  | .ok normalized =>
      .ok ⟨normalized, patterns, mask, normalizeLiterals_nonempty normal,
        normalizeLiterals_longestFirst normal⟩

def RedactionPolicy.applyText (self : RedactionPolicy) (value : List CodePoint) :
    Except RedactionError (List CodePoint) :=
  if self.literals.isEmpty && self.patterns.isEmpty then .ok value
  else do
    let literalSpans ← collectRuleSpans
      (fun literal => .ok (literalMatchSpans literal value 0)) .literal 0 self.literals
    let patternSpans ← collectRuleSpans (patternMatchSpans · value) .pattern 0 self.patterns
    let mergedSpans := mergeOverlappingSpans (literalSpans ++ patternSpans)
    if mergedSpans.isEmpty then return value
    return (pieces value self.mask 0 mergedSpans).flatten

end Cuprum.Redaction
