import Mathlib.Data.List.Infix

namespace Cuprum.Codec

universe u

variable {α : Type u} [DecidableEq α]

/-- Some symbols, a marker among them, are written as the marker and a tail of their own. -/
structure Escaping (α : Type u) [DecidableEq α] where
  marker : α
  table : List (α × List α)
  escapes_marker : marker ∈ table.map Prod.fst
  free : ∀ first ∈ table, ∀ second ∈ table, first.2 <+: second.2 → first.1 = second.1

namespace Escaping

variable (escaping : Escaping α)

def code (symbol : α) : List α :=
  match escaping.table.lookup symbol with
  | some tail => escaping.marker :: tail
  | none => [symbol]

def escape (text : List α) : List α :=
  text.flatMap escaping.code

theorem mem_of_lookup {table : List (α × List α)} {symbol : α} {tail : List α}
    (found : table.lookup symbol = some tail) : (symbol, tail) ∈ table := by
  induction table with
  | nil => contradiction
  | cons entry table induction =>
      obtain ⟨first, second⟩ := entry
      rw [List.lookup_cons] at found
      split at found
      · next same =>
          cases found
          rw [eq_of_beq same]
          exact List.mem_cons_self
      · exact List.mem_cons_of_mem _ (induction found)

theorem marker_of_lookup_none {symbol : α} (absent : escaping.table.lookup symbol = none) :
    symbol ∉ escaping.table.map Prod.fst := by
  rw [List.lookup_eq_none_iff] at absent
  intro member
  obtain ⟨entry, inside, same⟩ := List.mem_map.mp member
  exact bne_iff_ne.mp (absent entry inside) same.symm

theorem code_plain {symbol : α} (plain : symbol ∉ escaping.table.map Prod.fst) :
    escaping.code symbol = [symbol] := by
  have absent : escaping.table.lookup symbol = none := by
    rw [List.lookup_eq_none_iff]
    intro entry inside
    exact bne_iff_ne.mpr fun same => plain (List.mem_map.mpr ⟨entry, inside, same.symm⟩)
  unfold code
  rw [absent]

/-- No code is the front of another symbol's code. -/
theorem eq_of_code_prefix {first second : α} (front : escaping.code first <+: escaping.code second) :
    first = second := by
  unfold code at front
  cases one : escaping.table.lookup first with
  | none =>
      cases other : escaping.table.lookup second with
      | none =>
          rw [one, other] at front
          exact (List.cons_prefix_cons.mp front).1
      | some tail =>
          rw [one, other] at front
          rw [(List.cons_prefix_cons.mp front).1] at one
          exact absurd escaping.escapes_marker (escaping.marker_of_lookup_none one)
  | some tail =>
      cases other : escaping.table.lookup second with
      | none =>
          rw [one, other] at front
          rw [← (List.cons_prefix_cons.mp front).1] at other
          exact absurd escaping.escapes_marker (escaping.marker_of_lookup_none other)
      | some longer =>
          rw [one, other] at front
          exact escaping.free _ (mem_of_lookup one) _ (mem_of_lookup other)
            (List.cons_prefix_cons.mp front).2

theorem code_ne_nil (symbol : α) : escaping.code symbol ≠ [] := by
  unfold code
  split <;> exact List.cons_ne_nil _ _

theorem escape_injective : Function.Injective escaping.escape := by
  intro first
  induction first with
  | nil =>
      intro second same
      cases second with
      | nil => rfl
      | cons symbol second =>
          have empty := (List.append_eq_nil_iff.mp same.symm).1
          exact absurd empty (escaping.code_ne_nil symbol)
  | cons symbol first induction =>
      intro second same
      cases second with
      | nil =>
          have empty := (List.append_eq_nil_iff.mp same).1
          exact absurd empty (escaping.code_ne_nil symbol)
      | cons other second =>
          have equal : symbol = other := by
            have left : escaping.code symbol <+: escaping.escape (symbol :: first) :=
              List.prefix_append _ _
            have right : escaping.code other <+: escaping.escape (symbol :: first) := by
              rw [same]
              exact List.prefix_append _ _
            rcases List.prefix_or_prefix_of_prefix left right with shorter | longer
            · exact escaping.eq_of_code_prefix shorter
            · exact (escaping.eq_of_code_prefix longer).symm
          subst equal
          exact congrArg (symbol :: ·) (induction (List.append_cancel_left same))

/-- What is escaped stands in no escaped text, unless it is part of a code. -/
theorem not_mem_escape {symbol : α} (escaped : symbol ∈ escaping.table.map Prod.fst)
    (unmarked : symbol ≠ escaping.marker) (outside : ∀ entry ∈ escaping.table, symbol ∉ entry.2)
    (text : List α) : symbol ∉ escaping.escape text := by
  intro member
  obtain ⟨source, _, inside⟩ := List.mem_flatMap.mp member
  unfold code at inside
  split at inside
  · next tail found =>
      rcases List.mem_cons.mp inside with same | tailed
      · exact unmarked same
      · exact outside _ (mem_of_lookup found) tailed
  · next absent =>
      rw [List.mem_singleton.mp inside] at escaped
      exact escaping.marker_of_lookup_none absent escaped

end Escaping

end Cuprum.Codec
