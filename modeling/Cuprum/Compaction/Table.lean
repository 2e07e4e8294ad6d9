import Mathlib.Logic.Function.Basic

namespace Cuprum.Compaction

universe u v

variable {κ : Type u} {ν : Type v} [DecidableEq κ]

/-! A dictionary that is filled from its items in their order. -/

def dict (items : List (κ × ν)) : κ → Option ν :=
  items.foldl (fun table item => Function.update table item.1 (some item.2)) fun _ => none

/-- Every value here is the one `value` gives its key, so it does not matter which of the
items of a key is the last. -/
theorem foldl_update_zip (keys : List κ) (value : κ → ν) (table : κ → Option ν) (key : κ) :
    (keys.zip (keys.map value)).foldl
        (fun (table : κ → Option ν) item => Function.update table item.1 (some item.2)) table key =
      if key ∈ keys then some (value key) else table key := by
  induction keys generalizing table with
  | nil => rfl
  | cons first keys induction =>
      rw [List.map_cons, List.zip_cons_cons, List.foldl_cons, induction]
      by_cases later : key ∈ keys
      · rw [if_pos later, if_pos (List.mem_cons_of_mem _ later)]
      · rw [if_neg later]
        by_cases same : key = first
        · subst same
          rw [Function.update_self, if_pos List.mem_cons_self]
        · rw [Function.update_of_ne same, if_neg (by simp [same, later])]

theorem dict_zip_map (keys : List κ) (value : κ → ν) (key : κ) :
    dict (keys.zip (keys.map value)) key = if key ∈ keys then some (value key) else none :=
  foldl_update_zip keys value _ key

end Cuprum.Compaction
