import Cuprum.Compaction.Slots
import Cuprum.Concurrent.Result

namespace Cuprum.Concurrent

open Compaction

variable {ρ ε : Type}

/-- How the task of one command ends. -/
inductive Ending (ρ ε : Type)
  | result (value : ρ)
  | cancelled
  | raised (error : ε)

/-- What a run raises: the first exception of its tasks, or all of a task group's. -/
inductive Raised (ε : Type)
  | cancelled
  | one (error : ε)
  | group (errors : List ε)
  | invalid (invalid : Invalid)

/-- The tasks of a run in the order they end in; each ends once. -/
structure Completions (ρ ε : Type) (count : Nat) where
  completions : List (Nat × Ending ρ ε)
  once : (completions.map Prod.fst).Perm (List.range count)

def enumerate {α : Type} (start : Nat) : List α → List (Nat × α)
  | [] => []
  | value :: values => (start, value) :: enumerate (start + 1) values

/-- The results so far, the position each was submitted at, and the failures' positions
among them. -/
structure Collected (ρ : Type) where
  results : List ρ := []
  submissionIndices : List Nat := []
  failures : List Nat := []

section

variable (ok : ρ → Bool)

def collectResult (collected : Collected ρ) (indexed : Nat × Option ρ) : Collected ρ :=
  match indexed.2 with
  | none => collected
  | some result =>
      { results := collected.results ++ [result]
        submissionIndices := collected.submissionIndices ++ [indexed.1]
        failures :=
          if ok result then collected.failures
          else collected.failures ++ [collected.results.length] }

def collectResultsAndFailures (indexedResults : List (Nat × Option ρ)) : Collected ρ :=
  indexedResults.foldl (collectResult ok) {}

def buildFinalResults (results : List (Option ρ)) : Collected ρ :=
  collectResultsAndFailures ok (enumerate 0 results)

def Collected.concurrentResult (self : Collected ρ) :
    Except (Raised ε) (ConcurrentResult ρ) :=
  (ConcurrentResult.init self.results (self.failures.map .nat)
    (some (self.submissionIndices.map .nat))).mapError .invalid

/-- The first exception of the gathered results is raised in their place. -/
def completedResults : List (Ending ρ ε) → Except (Raised ε) (List (Option ρ))
  | [] => .ok []
  | .result value :: endings => do
      let completed ← completedResults endings
      pure (some value :: completed)
  | .cancelled :: _ => .error .cancelled
  | .raised error :: _ => .error (.one error)

variable {count : Nat}

/-- Gathered results stand in the order of the commands, whenever each came. -/
def Completions.gathered (self : Completions ρ ε count) : List (Ending ρ ε) :=
  (written count self.completions).reduceOption

def runCollectAll (tasks : Completions ρ ε count) :
    Except (Raised ε) (ConcurrentResult ρ) := do
  let completed ← completedResults tasks.gathered
  (collectResultsAndFailures ok (enumerate 0 completed)).concurrentResult

/-- A task leaves its result in its own slot; one that is cancelled leaves none. -/
def recordResult (results : List (Option ρ)) (completion : Nat × Ending ρ ε) :
    List (Option ρ) :=
  match completion.2 with
  | .result value => results.set completion.1 (some value)
  | .cancelled | .raised _ => results

def Completions.slots (self : Completions ρ ε count) : List (Option ρ) :=
  self.completions.foldl recordResult (List.replicate count none)

def Ending.error? : Ending ρ ε → Option ε
  | .raised error => some error
  | .result _ | .cancelled => none

/-- Only first failures are taken out of what a task group raises. -/
def runFailFast (tasks : Completions ρ ε count) :
    Except (Raised ε) (ConcurrentResult ρ) :=
  match tasks.completions.filterMap (·.2.error?) with
  | [] => (buildFinalResults ok tasks.slots).concurrentResult
  | errors => .error (.group errors)

def runConcurrent (failFast : Bool) (tasks : Completions ρ ε count) :
    Except (Raised ε) (ConcurrentResult ρ) :=
  if failFast then runFailFast ok tasks else runCollectAll ok tasks

end

/-! What is collected of the slots. -/

variable {ok : ρ → Bool} {slots : List (Option ρ)}

theorem foldl_collectResult (start : Nat) (collected : Collected ρ) :
    (enumerate start slots).foldl (collectResult ok) collected =
      { results := collected.results ++ slots.reduceOption
        submissionIndices := collected.submissionIndices ++ slots.findIdxs Option.isSome start
        failures := collected.failures ++
          slots.reduceOption.findIdxs (fun result => !ok result) collected.results.length } := by
  induction slots generalizing start collected with
  | nil => simp [enumerate]
  | cons slot slots induction =>
      rw [enumerate, List.foldl_cons, induction]
      cases slot with
      | none => simp [collectResult]
      | some result =>
          cases passed : ok result with
          | true => simp [collectResult, passed]
          | false => simp [collectResult, passed]

theorem buildFinalResults_eq (ok : ρ → Bool) (slots : List (Option ρ)) :
    buildFinalResults ok slots =
      { results := slots.reduceOption
        submissionIndices := filled slots
        failures := slots.reduceOption.findIdxs fun result => !ok result } :=
  foldl_collectResult 0 {}

/-- A result whose positions are those of the slots it was built from. -/
structure Aligned (ok : ρ → Bool) (slots : List (Option ρ)) (result : ConcurrentResult ρ) :
    Prop where
  results : result.results = slots.reduceOption
  ascending : result.submissionIndices.Pairwise (· < ·)
  parallel : result.submissionIndices.length = result.results.length
  points : ∀ (position : Nat) value, result.results[position]? = some value →
    ∃ slot : Nat, result.submissionIndices[position]? = some slot ∧
      slots[slot]? = some (some value)
  failures : result.failures = result.results.findIdxs fun value => !ok value
  failureSubmissions : result.failureSubmissionIndices =
    slots.findIdxs fun slot => slot.elim false fun value => !ok value

/-- The constructor accepts what is built of any slots. -/
theorem concurrentResult_aligned (ok : ρ → Bool) (slots : List (Option ρ)) :
    ∃ result, (buildFinalResults ok slots).concurrentResult (ε := ε) = .ok result ∧
      Aligned ok slots result := by
  rw [buildFinalResults_eq]
  obtain ⟨result, built, results, failures, submissions⟩ :=
    @ConcurrentResult.init_numbered _ slots.reduceOption
      (slots.reduceOption.findIdxs fun result => !ok result) (filled slots)
      List.pairwise_findIdxs (fun failure member => by
        simpa using List.lt_add_of_mem_findIdxs failure member)
      List.pairwise_findIdxs (length_filled slots)
  refine ⟨result, ?_, ?_⟩
  · rw [Collected.concurrentResult, built]
    rfl
  · exact {
      results := results
      ascending := result.submissionAscending
      parallel := result.parallel
      points := by
        rw [results, submissions]
        exact fun position value => getElem?_filled
      failures := by rw [failures, results]
      failureSubmissions := by
        apply List.map_injective_iff.mpr (fun _ _ same => Option.some.inj same)
        rw [result.map_failureSubmissionIndices, failures, submissions]
        exact map_filled_findIdxs _ slots }

/-! The slots of a run, in whatever order its tasks end. -/

def resultOf (completion : Nat × Ending ρ ε) : Option (Nat × ρ) :=
  match completion.2 with
  | .result value => some (completion.1, value)
  | .cancelled | .raised _ => none

namespace Completions

variable {count : Nat} (tasks : Completions ρ ε count)

theorem slots_eq : tasks.slots = written count (tasks.completions.filterMap resultOf) := by
  rw [written, List.foldl_filterMap, slots]
  congr 1
  funext results completion
  obtain ⟨slot, ending⟩ := completion
  cases ending <;> rfl

theorem nodup : (tasks.completions.map Prod.fst).Nodup :=
  tasks.once.nodup_iff.mpr List.nodup_range

theorem nodup_results : ((tasks.completions.filterMap resultOf).map Prod.fst).Nodup := by
  apply List.Nodup.sublist ?_ tasks.nodup
  induction tasks.completions with
  | nil => exact .slnil
  | cons completion completions induction =>
      obtain ⟨slot, ending⟩ := completion
      cases ending with
      | result value => exact induction.cons_cons slot
      | cancelled | raised => exact induction.cons slot

theorem mem_results {slot : Nat} {value : ρ} :
    (slot, value) ∈ tasks.completions.filterMap resultOf ↔
      (slot, .result value) ∈ tasks.completions := by
  rw [List.mem_filterMap]
  constructor
  · rintro ⟨⟨other, ending⟩, member, same⟩
    cases ending with
    | result _ =>
        cases same
        exact member
    | cancelled | raised => contradiction
  · exact fun member => ⟨_, member, rfl⟩

theorem getElem?_slots {slot : Nat} (inside : slot < count) {value : ρ} :
    tasks.slots[slot]? = some (some value) ↔ (slot, .result value) ∈ tasks.completions := by
  rw [slots_eq, getElem?_written tasks.nodup_results inside, mem_results]

@[simp] theorem length_slots : tasks.slots.length = count := by
  rw [slots_eq, length_written]

theorem recorded_iff (slot : Nat) (value : ρ) :
    tasks.slots[slot]? = some (some value) ↔ (slot, .result value) ∈ tasks.completions := by
  by_cases inside : slot < count
  · exact tasks.getElem?_slots inside
  · constructor
    · intro here
      rw [List.getElem?_eq_none] at here
      · contradiction
      · rw [tasks.length_slots]
        exact Nat.le_of_not_lt inside
    · intro member
      have ended := tasks.once.mem_iff.mp (List.mem_map.mpr ⟨_, member, rfl⟩)
      exact absurd (List.mem_range.mp ended) inside

theorem written_eq : written count tasks.completions = tasks.gathered.map some := by
  refine (map_some_reduceOption fun slot member => ?_).symm
  obtain ⟨position, inside, rfl⟩ := List.mem_iff_getElem.mp member
  rw [length_written] at inside
  have ended : position ∈ tasks.completions.map Prod.fst :=
    tasks.once.mem_iff.mpr (List.mem_range.mpr inside)
  obtain ⟨⟨other, ending⟩, completion, rfl⟩ := List.mem_map.mp ended
  have here := (getElem?_written tasks.nodup inside).mpr completion
  rw [List.getElem?_eq_getElem (by rwa [length_written])] at here
  rw [Option.some.inj here]
  rfl

theorem getElem?_gathered {slot : Nat} (inside : slot < count) {ending : Ending ρ ε} :
    tasks.gathered[slot]? = some ending ↔ (slot, ending) ∈ tasks.completions := by
  rw [← getElem?_written tasks.nodup inside, written_eq, List.getElem?_map]
  simp

theorem length_gathered : tasks.gathered.length = count := by
  rw [← List.length_map (f := some), ← written_eq, length_written]

end Completions

/-- What is raised has been raised by a task. -/
def Raised.Of {count : Nat} (tasks : Completions ρ ε count) : Raised ε → Prop
  | .cancelled => ∃ slot, (slot, .cancelled) ∈ tasks.completions
  | .one error => ∃ slot, (slot, .raised error) ∈ tasks.completions
  | .group errors => errors ≠ [] ∧ ∀ error ∈ errors, ∃ slot, (slot, .raised error) ∈ tasks.completions
  | .invalid _ => False

theorem completedResults_ok {endings : List (Ending ρ ε)} {completed : List (Option ρ)}
    (passed : completedResults endings = .ok completed) :
    ∃ values : List ρ, endings = values.map .result ∧ completed = values.map some := by
  induction endings generalizing completed with
  | nil =>
      cases passed
      exact ⟨[], rfl, rfl⟩
  | cons ending endings induction =>
      cases ending with
      | cancelled | raised => contradiction
      | result value =>
          rw [completedResults] at passed
          cases rest : completedResults endings with
          | error raised =>
              rw [rest] at passed
              contradiction
          | ok others =>
              rw [rest] at passed
              cases passed
              obtain ⟨values, rfl, rfl⟩ := induction rest
              exact ⟨value :: values, rfl, rfl⟩

theorem completedResults_error {endings : List (Ending ρ ε)} {raised : Raised ε}
    (failed : completedResults endings = .error raised) :
    (raised = .cancelled ∧ .cancelled ∈ endings) ∨
      ∃ error, raised = .one error ∧ .raised error ∈ endings := by
  induction endings with
  | nil => contradiction
  | cons ending endings induction =>
      cases ending with
      | cancelled =>
          cases failed
          exact .inl ⟨rfl, List.mem_cons_self⟩
      | raised error =>
          cases failed
          exact .inr ⟨error, rfl, List.mem_cons_self⟩
      | result value =>
          rw [completedResults] at failed
          cases rest : completedResults endings with
          | ok others =>
              rw [rest] at failed
              contradiction
          | error other =>
              rw [rest] at failed
              cases failed
              rcases induction rest with ⟨rfl, member⟩ | ⟨error, rfl, member⟩
              · exact .inl ⟨rfl, List.mem_cons_of_mem _ member⟩
              · exact .inr ⟨error, rfl, List.mem_cons_of_mem _ member⟩

theorem slots_of_completed {count : Nat} (tasks : Completions ρ ε count)
    {completed : List (Option ρ)} (passed : completedResults tasks.gathered = .ok completed) :
    completed = tasks.slots := by
  obtain ⟨values, endings, rfl⟩ := completedResults_ok passed
  have counted : values.length = count := by
    rw [← tasks.length_gathered, endings, List.length_map]
  apply List.ext_getElem?
  intro slot
  by_cases inside : slot < count
  · have here : values[slot]? = some (values.get ⟨slot, counted ▸ inside⟩) :=
      List.getElem?_eq_getElem _
    rw [List.getElem?_map, here]
    refine ((tasks.getElem?_slots inside).mpr ((tasks.getElem?_gathered inside).mp ?_)).symm
    rw [endings, List.getElem?_map, here]
    rfl
  · rw [List.getElem?_eq_none, List.getElem?_eq_none]
    · rw [tasks.length_slots]
      exact Nat.le_of_not_lt inside
    · rw [List.length_map, counted]
      exact Nat.le_of_not_lt inside

/-- How a run comes out: aligned with its slots, or with an exception of its tasks. -/
def Settled {count : Nat} (ok : ρ → Bool) (tasks : Completions ρ ε count) :
    Except (Raised ε) (ConcurrentResult ρ) → Prop
  | .ok result => Aligned ok tasks.slots result
  | .error raised => raised.Of tasks

theorem settled_collectAll {count : Nat} (ok : ρ → Bool) (tasks : Completions ρ ε count) :
    Settled ok tasks (runCollectAll ok tasks) := by
  have ended : ∀ {ending}, ending ∈ tasks.gathered →
      ∃ slot, (slot, ending) ∈ tasks.completions := by
    intro ending member
    obtain ⟨slot, inside, here⟩ := List.mem_iff_getElem.mp member
    refine ⟨slot, (tasks.getElem?_gathered (tasks.length_gathered ▸ inside)).mp ?_⟩
    rw [← here]
    exact List.getElem?_eq_getElem inside
  unfold runCollectAll
  cases passed : completedResults tasks.gathered with
  | error raised =>
      rcases completedResults_error passed with ⟨rfl, member⟩ | ⟨error, rfl, member⟩
      · exact ended member
      · exact ended member
  | ok completed =>
      cases slots_of_completed tasks passed
      obtain ⟨result, built, aligned⟩ := concurrentResult_aligned (ε := ε) ok tasks.slots
      change Settled ok tasks (buildFinalResults ok tasks.slots).concurrentResult
      rw [built]
      exact aligned

theorem settled_failFast {count : Nat} (ok : ρ → Bool) (tasks : Completions ρ ε count) :
    Settled ok tasks (runFailFast ok tasks) := by
  unfold runFailFast
  split
  · obtain ⟨result, built, aligned⟩ := concurrentResult_aligned (ε := ε) ok tasks.slots
    rw [built]
    exact aligned
  · next raised =>
      refine ⟨raised, fun error member => ?_⟩
      obtain ⟨⟨slot, ending⟩, ended, same⟩ := List.mem_filterMap.mp member
      cases ending with
      | raised other =>
          cases same
          exact ⟨slot, ended⟩
      | result | cancelled => contradiction

/-- Whatever is absent or has failed, and in whatever order the tasks end, a result is
aligned with the slots of its run, and the constructor accepts it. -/
theorem concurrent_result_aligned (ok : ρ → Bool) (failFast : Bool) {count : Nat}
    (tasks : Completions ρ ε count) :
    (∀ slots : List (Option ρ), ∃ result,
      (buildFinalResults ok slots).concurrentResult (ε := ε) = .ok result ∧
        Aligned ok slots result) ∧
      (tasks.slots.length = count ∧ ∀ (slot : Nat) value,
        tasks.slots[slot]? = some (some value) ↔
          (slot, .result value) ∈ tasks.completions) ∧
        Settled ok tasks (runConcurrent ok failFast tasks) := by
  refine ⟨concurrentResult_aligned ok, ⟨tasks.length_slots, tasks.recorded_iff⟩, ?_⟩
  unfold runConcurrent
  split
  · exact settled_failFast ok tasks
  · exact settled_collectAll ok tasks

/-- Of three commands the third ends first and fails; the second is cancelled. -/
example : (runConcurrent (ε := Empty) (fun code : Nat => code == 0) true
    (⟨[(2, .result 1), (0, .result 0), (1, .cancelled)], by decide⟩ :
      Completions Nat Empty 3)).toOption.map
        (fun result => (result.results, result.failures, result.submissionIndices,
          result.failureSubmissionIndices)) = some ([0, 1], [1], [0, 2], [2]) := by
  decide

end Cuprum.Concurrent
