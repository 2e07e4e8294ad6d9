import Mathlib.Data.List.Infix

namespace Cuprum.Text

universe u

variable {α : Type u}

/-- The characters that end a line.  A carriage return and the line feed after
it end one line together. -/
structure LineEndings (α : Type u) where
  isBoundary : α → Bool
  carriageReturn : α
  lineFeed : α
  isBoundary_carriageReturn : isBoundary carriageReturn = true
  isBoundary_lineFeed : isBoundary lineFeed = true
  carriageReturn_ne_lineFeed : carriageReturn ≠ lineFeed

namespace LineEndings

variable [DecidableEq α] (endings : LineEndings α)

/-- The lines of a text with their endings, the first one begun by `line`. -/
def linesFrom (line : List α) : List α → List (List α × List α)
  | [] => if line = [] then [] else [(line, [])]
  | [c] => if endings.isBoundary c then [(line, [c])] else [(line ++ [c], [])]
  | c :: d :: rest =>
      if c = endings.carriageReturn ∧ d = endings.lineFeed then
        (line, [c, d]) :: linesFrom [] rest
      else if endings.isBoundary c then (line, [c]) :: linesFrom [] (d :: rest)
      else linesFrom (line ++ [c]) (d :: rest)

def lines (text : List α) : List (List α) :=
  (endings.linesFrom [] text).map Prod.fst

@[simp] theorem linesFrom_nil_nil : endings.linesFrom [] [] = [] := rfl

theorem linesFrom_nil {line : List α} (nonempty : line ≠ []) :
    endings.linesFrom line [] = [(line, [])] :=
  if_neg nonempty

theorem linesFrom_plain {c : α} (plain : endings.isBoundary c = false)
    (line rest : List α) :
    endings.linesFrom line (c :: rest) = endings.linesFrom (line ++ [c]) rest := by
  cases rest with
  | nil => simp [linesFrom, plain]
  | cons d rest =>
      have notReturn : c ≠ endings.carriageReturn := by
        rintro rfl
        rw [endings.isBoundary_carriageReturn] at plain
        cases plain
      rw [linesFrom, if_neg (fun pair => notReturn pair.1), plain]
      rfl

theorem linesFrom_boundary {c : α} (boundary : endings.isBoundary c = true)
    {rest : List α}
    (alone : c = endings.carriageReturn → rest.head? ≠ some endings.lineFeed)
    (line : List α) :
    endings.linesFrom line (c :: rest) = (line, [c]) :: endings.linesFrom [] rest := by
  cases rest with
  | nil => simp [linesFrom, boundary]
  | cons d rest =>
      have notPair : ¬ (c = endings.carriageReturn ∧ d = endings.lineFeed) := by
        rintro ⟨isReturn, rfl⟩
        exact alone isReturn rfl
      rw [linesFrom, if_neg notPair, if_pos boundary]

theorem linesFrom_pair (line rest : List α) :
    endings.linesFrom line (endings.carriageReturn :: endings.lineFeed :: rest) =
      (line, [endings.carriageReturn, endings.lineFeed]) ::
        endings.linesFrom [] rest := by
  rw [linesFrom, if_pos ⟨rfl, rfl⟩]

theorem linesFrom_append_plain {text : List α}
    (plain : ∀ c ∈ text, endings.isBoundary c = false) (line rest : List α) :
    endings.linesFrom line (text ++ rest) = endings.linesFrom (line ++ text) rest := by
  induction text generalizing line with
  | nil => simp
  | cons c text induction =>
      rw [List.cons_append, linesFrom_plain _ (plain c List.mem_cons_self),
        induction fun d member => plain d (List.mem_cons_of_mem c member)]
      simp

/-- Only the first line depends on how it began. -/
theorem linesFrom_first (text : List α) :
    ∃ more ending rest, ∀ line, line ≠ [] →
      endings.linesFrom line text = (line ++ more, ending) :: rest := by
  induction text with
  | nil =>
      refine ⟨[], [], [], fun line nonempty => ?_⟩
      rw [linesFrom_nil _ nonempty, List.append_nil]
  | cons c text induction =>
      cases boundary : endings.isBoundary c with
      | false =>
          obtain ⟨more, ending, rest, first⟩ := induction
          refine ⟨c :: more, ending, rest, fun line _ => ?_⟩
          rw [linesFrom_plain _ boundary, first _ (by simp), List.append_assoc]
          rfl
      | true =>
          by_cases pair : c = endings.carriageReturn ∧
              text.head? = some endings.lineFeed
          · obtain ⟨rfl, head⟩ := pair
            obtain ⟨rest, rfl⟩ := List.head?_eq_some_iff.mp head
            refine ⟨[], [endings.carriageReturn, endings.lineFeed],
              endings.linesFrom [] rest, fun line _ => ?_⟩
            rw [linesFrom_pair, List.append_nil]
          · refine ⟨[], [c], endings.linesFrom [] text, fun line _ => ?_⟩
            rw [endings.linesFrom_boundary boundary
              (fun isReturn head => pair ⟨isReturn, head⟩), List.append_nil]

end LineEndings

/-! Lines cut into pieces of a bounded length. -/

def pieces (bound : Nat) (line : List α) : List (List α) :=
  if bound = 0 ∨ line.length ≤ bound then [line]
  else line.take bound :: pieces bound (line.drop bound)
termination_by line.length
decreasing_by
  rw [List.length_drop]
  omega

theorem pieces_of_le {bound : Nat} {line : List α} (short : line.length ≤ bound) :
    pieces bound line = [line] := by
  rw [pieces, if_pos (Or.inr short)]

theorem pieces_of_lt {bound : Nat} {line : List α} (positive : 0 < bound)
    (long : bound < line.length) :
    pieces bound line = line.take bound :: pieces bound (line.drop bound) := by
  rw [pieces, if_neg (by omega)]

/-- The first pieces of a line are settled before the line is complete. -/
theorem pieces_append {bound : Nat} (positive : 0 < bound) (line more : List α)
    (count : Nat) (fits : count = 0 ∨ count * bound < line.length) :
    pieces bound (line ++ more) =
      (List.range count).map (fun index =>
        (line.drop (index * bound)).take bound) ++
        pieces bound (line.drop (count * bound) ++ more) := by
  induction count with
  | zero => simp
  | succ count induction =>
      have next : count * bound + bound < line.length := by
        rw [Nat.succ_mul] at fits
        omega
      have remaining : bound < (line.drop (count * bound)).length := by
        rw [List.length_drop]
        omega
      have rest : (line.drop (count * bound) ++ more).drop bound =
          line.drop ((count + 1) * bound) ++ more := by
        rw [List.drop_append_of_le_length (by omega), List.drop_drop, Nat.succ_mul]
      rw [induction (by omega), List.range_succ, List.map_append,
        pieces_of_lt positive (by rw [List.length_append]; omega), rest,
        List.take_append_of_le_length (by omega)]
      simp

def cut (bound : Option Nat) (line : List α) : List (List α) :=
  match bound with
  | none => [line]
  | some bound => pieces bound line

namespace LineEndings

variable [DecidableEq α] (endings : LineEndings α)

/-- The bounded lines of a text that continues the line begun by `line`. -/
def boundedFrom (bound : Option Nat) (line text : List α) : List (List α) :=
  (endings.linesFrom line text).flatMap fun entry => cut bound entry.1

def boundedLines (bound : Option Nat) (text : List α) : List (List α) :=
  (endings.lines text).flatMap (cut bound)

theorem boundedLines_eq (bound : Option Nat) (text : List α) :
    endings.boundedLines bound text = endings.boundedFrom bound [] text := by
  rw [boundedLines, lines, List.flatMap_map]
  rfl

theorem boundedFrom_append_plain (bound : Option Nat) {text : List α}
    (plain : ∀ c ∈ text, endings.isBoundary c = false) (line rest : List α) :
    endings.boundedFrom bound line (text ++ rest) =
      endings.boundedFrom bound (line ++ text) rest := by
  rw [boundedFrom, endings.linesFrom_append_plain plain]
  rfl

theorem boundedFrom_boundary (bound : Option Nat) {c : α}
    (boundary : endings.isBoundary c = true) {rest : List α}
    (alone : c = endings.carriageReturn → rest.head? ≠ some endings.lineFeed)
    (line : List α) :
    endings.boundedFrom bound line (c :: rest) =
      cut bound line ++ endings.boundedFrom bound [] rest := by
  rw [boundedFrom, endings.linesFrom_boundary boundary alone]
  rfl

theorem boundedFrom_pair (bound : Option Nat) (line rest : List α) :
    endings.boundedFrom bound line
        (endings.carriageReturn :: endings.lineFeed :: rest) =
      cut bound line ++ endings.boundedFrom bound [] rest := by
  rw [boundedFrom, endings.linesFrom_pair]
  rfl

/-- Settled pieces of the line in progress do not depend on its continuation. -/
theorem boundedFrom_overflow {bound : Nat} (positive : 0 < bound)
    (line text : List α) (count : Nat)
    (fits : count = 0 ∨ count * bound < line.length) :
    endings.boundedFrom (some bound) line text =
      (List.range count).map (fun index =>
        (line.drop (index * bound)).take bound) ++
        endings.boundedFrom (some bound) (line.drop (count * bound)) text := by
  rcases Nat.eq_zero_or_pos count with rfl | some
  · simp
  · have long : count * bound < line.length := by omega
    have nonempty : line ≠ [] := by
      rintro rfl
      simp at long
    have dropped : line.drop (count * bound) ≠ [] := by
      simp [long]
    obtain ⟨more, ending, rest, first⟩ := endings.linesFrom_first text
    rw [boundedFrom, boundedFrom, first _ nonempty, first _ dropped,
      List.flatMap_cons, List.flatMap_cons, ← List.append_assoc]
    exact congrArg (· ++ _) (pieces_append positive line more count fits)

end LineEndings

end Cuprum.Text
