import Mathlib.Data.List.Basic
import Mathlib.Data.List.ReduceOption
import Mathlib.Data.List.Nodup

namespace Cuprum.Compaction

universe u

variable {α : Type u}

/-! Slots of which some are filled, and the list of what they hold. -/

/-- What the filled slots hold, each with the number of its slot. -/
def held (start : Nat) : List (Option α) → List (Nat × α)
  | [] => []
  | none :: slots => held (start + 1) slots
  | some value :: slots => (start, value) :: held (start + 1) slots

/-- Where the filled slots are. -/
def filled (slots : List (Option α)) : List Nat :=
  slots.findIdxs Option.isSome

theorem map_snd_held (start : Nat) (slots : List (Option α)) :
    (held start slots).map Prod.snd = slots.reduceOption := by
  induction slots generalizing start with
  | nil => rfl
  | cons slot slots induction =>
      cases slot with
      | none => exact induction (start + 1)
      | some value => exact congrArg (value :: ·) (induction (start + 1))

theorem map_fst_filter_held (p : α → Bool) (start : Nat) (slots : List (Option α)) :
    ((held start slots).filter fun slot => p slot.2).map Prod.fst =
      slots.findIdxs (fun slot => slot.elim false p) start := by
  induction slots generalizing start with
  | nil => rfl
  | cons slot slots induction =>
      cases slot with
      | none => exact induction (start + 1)
      | some value =>
          rw [held, List.findIdxs_cons, List.filter_cons, Option.elim_some]
          dsimp only
          split
          · exact congrArg (start :: ·) (induction (start + 1))
          · exact induction (start + 1)

theorem map_fst_held (start : Nat) (slots : List (Option α)) :
    (held start slots).map Prod.fst = slots.findIdxs Option.isSome start := by
  have every := map_fst_filter_held (fun _ => true) start slots
  rw [List.filter_true] at every
  rw [every]
  congr 1
  funext slot
  cases slot <;> rfl

theorem mem_held {slot start : Nat} {value : α} {slots : List (Option α)} :
    (slot, value) ∈ held start slots ↔
      start ≤ slot ∧ slots[slot - start]? = some (some value) := by
  induction slots generalizing start with
  | nil => simp [held]
  | cons first slots induction =>
      have step : start + 1 ≤ slot ∧ slots[slot - (start + 1)]? = some (some value) ↔
          start < slot ∧ (first :: slots)[slot - start]? = some (some value) := by
        refine and_congr_right fun later => ?_
        rw [show slot - start = slot - (start + 1) + 1 by omega, List.getElem?_cons_succ]
      cases first with
      | none =>
          rw [held, induction, step]
          constructor
          · exact fun above => ⟨Nat.le_of_lt above.1, above.2⟩
          · rintro ⟨above, here⟩
            refine ⟨Nat.lt_of_le_of_ne above ?_, here⟩
            rintro rfl
            simp at here
      | some other =>
          rw [held, List.mem_cons, induction, step]
          constructor
          · rintro (same | above)
            · cases same
              simp
            · exact ⟨Nat.le_of_lt above.1, above.2⟩
          · rintro ⟨above, here⟩
            rcases Nat.lt_or_eq_of_le above with later | rfl
            · exact .inr ⟨later, here⟩
            · left
              simpa using here.symm

theorem length_filled (slots : List (Option α)) :
    (filled slots).length = slots.reduceOption.length := by
  rw [filled, ← map_fst_held 0, ← map_snd_held 0, List.length_map, List.length_map]

/-- A position of the compacted list and its slot hold one value. -/
theorem getElem?_filled {slots : List (Option α)} {position : Nat} {value : α}
    (here : slots.reduceOption[position]? = some value) :
    ∃ slot, (filled slots)[position]? = some slot ∧ slots[slot]? = some (some value) := by
  rw [← map_snd_held 0, List.getElem?_map, Option.map_eq_some_iff] at here
  obtain ⟨⟨slot, other⟩, found, rfl⟩ := here
  refine ⟨slot, ?_, (mem_held.mp (List.mem_of_getElem? found)).2⟩
  rw [filled, ← map_fst_held 0, List.getElem?_map, found]
  rfl

theorem map_getElem?_findIdxs (p : α → Bool) (values : List α) :
    (values.findIdxs p).map (values[·]?) = (values.filter p).map some := by
  apply List.ext_getElem
  · simp [List.countP_eq_length_filter]
  · intro position inside other
    rw [List.getElem_map, List.getElem_map,
      List.getElem_filter_eq_getElem_getElem_findIdxs (by simpa using other)]
    exact List.getElem?_eq_getElem _

/-- The slots of the values that are singled out, by their positions in the compacted
list. -/
theorem map_filled_findIdxs (p : α → Bool) (slots : List (Option α)) :
    (slots.reduceOption.findIdxs p).map ((filled slots)[·]?) =
      (slots.findIdxs fun slot => slot.elim false p).map some := by
  have whole := map_getElem?_findIdxs (fun slot => p slot.2) (held 0 slots)
  have firsts := congrArg (List.map (Option.map Prod.fst)) whole
  rw [List.map_map, List.map_map] at firsts
  rw [← map_fst_filter_held, filled, ← map_fst_held 0, ← map_snd_held 0, List.findIdxs_map,
    List.map_map]
  calc
    _ = List.map (Option.map Prod.fst ∘ ((held 0 slots)[·]?))
        ((held 0 slots).findIdxs fun slot => p slot.2) := by
      congr 1
      funext position
      exact List.getElem?_map
    _ = _ := firsts

theorem map_some_reduceOption {slots : List (Option α)}
    (every : ∀ slot ∈ slots, slot.isSome = true) : slots.reduceOption.map some = slots := by
  induction slots with
  | nil => rfl
  | cons slot slots induction =>
      obtain ⟨first, others⟩ := List.forall_mem_cons.mp every
      obtain ⟨value, rfl⟩ := Option.isSome_iff_exists.mp first
      exact congrArg (some value :: ·) (induction others)

/-! Slots that are filled one by one, in any order. -/

def written (count : Nat) (writes : List (Nat × α)) : List (Option α) :=
  writes.foldl (fun slots write => slots.set write.1 (some write.2))
    (List.replicate count none)

theorem length_foldl_set (writes : List (Nat × α)) (slots : List (Option α)) :
    (writes.foldl (fun slots write => slots.set write.1 (some write.2)) slots).length =
      slots.length := by
  induction writes generalizing slots with
  | nil => rfl
  | cons write writes induction => exact (induction _).trans List.length_set

@[simp] theorem length_written (count : Nat) (writes : List (Nat × α)) :
    (written count writes).length = count :=
  (length_foldl_set writes _).trans List.length_replicate

theorem getElem?_foldl_set {writes : List (Nat × α)} (once : (writes.map Prod.fst).Nodup)
    {slots : List (Option α)} {slot : Nat} (inside : slot < slots.length) {value : α} :
    (writes.foldl (fun slots write => slots.set write.1 (some write.2)) slots)[slot]? =
        some (some value) ↔
      (slot, value) ∈ writes ∨
        slot ∉ writes.map Prod.fst ∧ slots[slot]? = some (some value) := by
  induction writes generalizing slots with
  | nil => simp
  | cons write writes induction =>
      obtain ⟨fresh, once⟩ := List.nodup_cons.mp once
      rw [List.foldl_cons, induction once (by rwa [List.length_set]), List.getElem?_set,
        List.map_cons, List.mem_cons, List.mem_cons]
      by_cases same : write.1 = slot
      · subst same
        have absent : ∀ other, (write.1, other) ∉ writes := fun other member =>
          fresh (List.mem_map.mpr ⟨_, member, rfl⟩)
        simp [inside, absent, fresh, Prod.ext_iff, eq_comm]
      · simp [same, Ne.symm same, Prod.ext_iff]

theorem getElem?_written {writes : List (Nat × α)} (once : (writes.map Prod.fst).Nodup)
    {count slot : Nat} (inside : slot < count) {value : α} :
    (written count writes)[slot]? = some (some value) ↔ (slot, value) ∈ writes := by
  rw [written, getElem?_foldl_set once (by rwa [List.length_replicate])]
  simp [inside]

end Cuprum.Compaction
