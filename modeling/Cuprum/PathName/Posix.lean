import Mathlib.Data.List.Infix

namespace Cuprum.PathName

variable {α : Type}

/-! A path is a string of any alphabet with a separator and a dot. Splitting it
drops its empty segments and the segments that are a single dot. -/

structure Grammar (α : Type) where
  separator : α
  dot : α
  distinct : dot ≠ separator

/-- A segment is a whole stretch of the string between two separators or its ends. -/
def Between (isSeparator : α → Bool) (segment whole : List α) : Prop :=
  (∀ letter ∈ segment, isSeparator letter = false) ∧
    ∃ before after, whole = before ++ segment ++ after ∧
      (∀ letter ∈ before.getLast?, isSeparator letter = true) ∧
        ∀ letter ∈ after.head?, isSeparator letter = true

theorem splitOnP_cases (isSeparator : α → Bool) (whole : List α) :
    (whole.splitOnP isSeparator = [whole] ∧ ∀ letter ∈ whole, isSeparator letter = false) ∨
      ∃ first letter rest, whole = first ++ letter :: rest ∧ isSeparator letter = true ∧
        (∀ other ∈ first, isSeparator other = false) ∧
          whole.splitOnP isSeparator = first :: rest.splitOnP isSeparator := by
  by_cases free : ∀ letter ∈ whole, isSeparator letter = false
  · exact .inl ⟨List.splitOnP_eq_singleton free, free⟩
  · obtain ⟨letter, member, separates⟩ : ∃ letter ∈ whole, isSeparator letter = true := by
      simpa using free
    have present : (whole.find? isSeparator).isSome :=
      List.find?_isSome.mpr ⟨letter, member, separates⟩
    obtain ⟨found, isFound⟩ := Option.isSome_iff_exists.mp present
    obtain ⟨isSeparator', first, rest, rfl, clear⟩ := List.find?_eq_some_iff_append.mp isFound
    have free' : ∀ other ∈ first, isSeparator other = false := by simpa using clear
    exact .inr ⟨first, found, rest, rfl, isSeparator', free',
      List.splitOnP_append_cons_of_forall_mem free' found isSeparator' rest⟩

theorem Between.of_mem {isSeparator : α → Bool} {segment whole : List α}
    (member : segment ∈ whole.splitOnP isSeparator) : Between isSeparator segment whole := by
  obtain ⟨single, free⟩ | ⟨first, letter, rest, rfl, separates, free, split⟩ :=
    splitOnP_cases isSeparator whole
  · rw [single, List.mem_singleton] at member
    subst member
    exact ⟨free, [], [], by simp, nofun, nofun⟩
  · rw [split] at member
    rcases List.mem_cons.mp member with rfl | later
    · exact ⟨free, [], letter :: rest, by simp, nofun, by simpa using separates⟩
    · obtain ⟨clear, before, after, whole, start, stop⟩ := Between.of_mem later
      refine ⟨clear, first ++ letter :: before, after, by simp [whole], ?_, stop⟩
      intro last isLast
      cases before with
      | nil =>
          obtain rfl : letter = last := by simpa using isLast
          exact separates
      | cons next before =>
          exact start last (by simpa [List.getLast?_cons_cons] using isLast)
termination_by whole.length

theorem Between.mem {isSeparator : α → Bool} {segment whole : List α}
    (between : Between isSeparator segment whole) : segment ∈ whole.splitOnP isSeparator := by
  obtain ⟨free, before, after, rfl, start, stop⟩ := between
  have rest : segment ∈ (segment ++ after).splitOnP isSeparator := by
    cases after with
    | nil => simp [List.splitOnP_eq_singleton free]
    | cons letter after =>
        rw [List.splitOnP_append_cons_of_forall_mem free letter (stop letter rfl)]
        exact List.mem_cons_self
  rcases List.eq_nil_or_concat before with rfl | ⟨before, letter, rfl⟩
  · simpa using rest
  · have separates : isSeparator letter = true := start letter (by simp)
    have split := List.splitOnP_append_cons before (segment ++ after) separates
    have whole : before.concat letter ++ segment ++ after =
        before ++ letter :: (segment ++ after) := by simp
    rw [whole, split]
    exact List.mem_append_right _ rest

theorem mem_splitOnP_iff {isSeparator : α → Bool} {segment whole : List α} :
    segment ∈ whole.splitOnP isSeparator ↔ Between isSeparator segment whole :=
  ⟨Between.of_mem, Between.mem⟩

/-! The parts of a path are its root and its segments; POSIX leaves the meaning of
exactly two leading separators to the host, so they are a root of their own. -/

inductive Root
  | relative
  | single
  | double
  deriving DecidableEq, Repr

variable {grammar : Grammar α}

structure Grammar.IsSegment (grammar : Grammar α) (segment : List α) : Prop where
  named : segment ≠ []
  notDot : segment ≠ [grammar.dot]
  separatorFree : grammar.separator ∉ segment

def Grammar.anchor (grammar : Grammar α) : Root → List α
  | .relative => []
  | .single => [grammar.separator]
  | .double => [grammar.separator, grammar.separator]

@[ext]
structure PurePath (grammar : Grammar α) where
  root : Root
  tail : List (List α)
  wellFormed : ∀ segment ∈ tail, grammar.IsSegment segment

def PurePath.str (path : PurePath grammar) : List α :=
  if path.root = .relative ∧ path.tail = [] then [grammar.dot]
  else grammar.anchor path.root ++ [grammar.separator].intercalate path.tail

def PurePath.isAbsolute (path : PurePath grammar) : Bool :=
  path.root ≠ .relative

/-- An absolute right-hand path displaces everything before it. -/
def PurePath.truediv (path key : PurePath grammar) : PurePath grammar :=
  if key.isAbsolute then key
  else {
    root := path.root
    tail := path.tail ++ key.tail
    wellFormed := fun segment member =>
      (List.mem_append.mp member).elim (path.wellFormed segment) (key.wellFormed segment) }

theorem separator_mem_intercalate_iff {tail : List (List α)}
    (wellFormed : ∀ segment ∈ tail, grammar.IsSegment segment) :
    grammar.separator ∈ [grammar.separator].intercalate tail ↔ 2 ≤ tail.length := by
  cases tail with
  | nil => simp
  | cons first tail =>
      cases tail with
      | nil => simpa using (wellFormed first List.mem_cons_self).separatorFree
      | cons next tail => simp [List.intercalate_cons_cons]

theorem PurePath.separator_mem_str_iff (path : PurePath grammar) :
    grammar.separator ∈ path.str ↔ path.root ≠ .relative ∨ 2 ≤ path.tail.length := by
  have inner := separator_mem_intercalate_iff path.wellFormed
  unfold PurePath.str
  split
  next blank => simp [blank.1, blank.2, grammar.distinct.symm]
  next =>
    rw [List.mem_append, inner]
    cases path.root with
    | relative => simp [Grammar.anchor]
    | single => simp [Grammar.anchor]
    | double => simp [Grammar.anchor]

@[simp] theorem PurePath.truediv_absolute {key : PurePath grammar} (absolute : key.isAbsolute)
    (path : PurePath grammar) : path.truediv key = key :=
  if_pos absolute

theorem PurePath.truediv_relative {key : PurePath grammar} (relative : key.isAbsolute = false)
    (path : PurePath grammar) :
    (path.truediv key).root = path.root ∧ (path.truediv key).tail = path.tail ++ key.tail := by
  unfold PurePath.truediv
  rw [relative]
  exact ⟨rfl, rfl⟩

theorem intercalate_head {tail : List (List α)}
    (wellFormed : ∀ segment ∈ tail, grammar.IsSegment segment) :
    ([grammar.separator].intercalate tail).head? ≠ some grammar.separator := by
  cases tail with
  | nil => simp
  | cons first tail =>
      obtain ⟨named, _, free⟩ := wellFormed first List.mem_cons_self
      obtain ⟨letter, rest, rfl⟩ := List.exists_cons_of_ne_nil named
      have other : letter ≠ grammar.separator := fun same => free (same ▸ List.mem_cons_self)
      cases tail with
      | nil => simpa using other
      | cons next tail => simpa [List.intercalate_cons_cons] using other

theorem intercalate_getLast {tail : List (List α)}
    (wellFormed : ∀ segment ∈ tail, grammar.IsSegment segment) (nonempty : tail ≠ []) :
    [grammar.separator].intercalate tail ≠ [] ∧
      ([grammar.separator].intercalate tail).getLast? ≠ some grammar.separator := by
  induction tail with
  | nil => exact absurd rfl nonempty
  | cons first tail induction =>
      obtain ⟨segment, rest⟩ := List.forall_mem_cons.mp wellFormed
      cases tail with
      | nil =>
          rw [List.intercalate_singleton]
          exact ⟨segment.named, fun last => segment.separatorFree (List.mem_of_getLast? last)⟩
      | cons next tail =>
          obtain ⟨named, last⟩ := induction rest (List.cons_ne_nil _ _)
          rw [List.intercalate_cons_cons]
          refine ⟨by simp, ?_⟩
          rwa [List.getLast?_append_of_ne_nil _ named]

theorem PurePath.getLast?_str (path : PurePath grammar) :
    path.str.getLast? = some grammar.separator ↔ path.root ≠ .relative ∧ path.tail = [] := by
  unfold PurePath.str
  split
  next blank => simp [blank.1, grammar.distinct]
  next written =>
    by_cases empty : path.tail = []
    · have rooted : path.root ≠ .relative := fun relative => written ⟨relative, empty⟩
      rw [empty]
      cases root : path.root with
      | relative => exact absurd root rooted
      | single => simp [Grammar.anchor]
      | double => simp [Grammar.anchor]
    · obtain ⟨named, last⟩ := intercalate_getLast path.wellFormed empty
      rw [List.getLast?_append_of_ne_nil _ named]
      simp [empty, last]

theorem mem_intercalate {separator letter : α} {segments : List (List α)}
    (member : letter ∈ [separator].intercalate segments) :
    letter = separator ∨ ∃ segment ∈ segments, letter ∈ segment := by
  induction segments with
  | nil => simp at member
  | cons first rest induction =>
      cases rest with
      | nil =>
          rw [List.intercalate_singleton] at member
          exact .inr ⟨first, List.mem_cons_self, member⟩
      | cons next rest =>
          rw [List.intercalate_cons_cons, List.mem_append, List.mem_append,
            List.mem_singleton] at member
          obtain (inside | same) | later := member
          · exact .inr ⟨first, List.mem_cons_self, inside⟩
          · exact .inl same
          · exact (induction later).imp_right fun ⟨segment, among, inside⟩ =>
              ⟨segment, List.mem_cons_of_mem _ among, inside⟩

theorem PurePath.str_ne_nil (path : PurePath grammar) : path.str ≠ [] := by
  unfold PurePath.str
  split
  next => exact List.cons_ne_nil _ _
  next written =>
    by_cases empty : path.tail = []
    · have rooted : path.root ≠ .relative := fun relative => written ⟨relative, empty⟩
      cases root : path.root with
      | relative => exact absurd root rooted
      | single => simp [Grammar.anchor]
      | double => simp [Grammar.anchor]
    · exact List.append_ne_nil_of_right_ne_nil _ (intercalate_getLast path.wellFormed empty).1

section Parsing

variable [DecidableEq α]

def Grammar.splitroot (grammar : Grammar α) (path : List α) : Root × List α :=
  if path.head? ≠ some grammar.separator then (.relative, path)
  else if path[1]? ≠ some grammar.separator ∨ path[2]? = some grammar.separator then
    (.single, path.drop 1)
  else (.double, path.drop 2)

def Grammar.keeps (grammar : Grammar α) (segment : List α) : Bool :=
  segment ≠ [] && segment ≠ [grammar.dot]

theorem Grammar.isSegment_of_kept {grammar : Grammar α} {rest segment : List α}
    (member : segment ∈ (rest.splitOn grammar.separator).filter grammar.keeps) :
    grammar.IsSegment segment := by
  obtain ⟨split, kept⟩ := List.mem_filter.mp member
  rw [List.splitOn_eq_splitOnP] at split
  have free := (Between.of_mem split).1
  have named : segment ≠ [] ∧ segment ≠ [grammar.dot] := by
    simpa [Grammar.keeps] using kept
  refine ⟨named.1, named.2, fun inside => ?_⟩
  simpa using free _ inside

def PurePath.parse (grammar : Grammar α) (path : List α) : PurePath grammar where
  root := (grammar.splitroot path).1
  tail := ((grammar.splitroot path).2.splitOn grammar.separator).filter grammar.keeps
  wellFormed := fun _ member => Grammar.isSegment_of_kept member

theorem Grammar.splitroot_relative {path : List α}
    (clear : path.head? ≠ some grammar.separator) :
    grammar.splitroot path = (.relative, path) :=
  if_pos clear

theorem Grammar.splitroot_anchor {rest : List α}
    (clear : rest.head? ≠ some grammar.separator) (root : Root) :
    grammar.splitroot (grammar.anchor root ++ rest) = (root, rest) := by
  cases root with
  | relative => exact Grammar.splitroot_relative clear
  | single =>
      have second : (grammar.anchor .single ++ rest)[1]? ≠ some grammar.separator := by
        simpa [Grammar.anchor, List.head?_eq_getElem?] using clear
      unfold Grammar.splitroot
      rw [if_neg (by simp [Grammar.anchor]), if_pos (.inl second)]
      rfl
  | double =>
      have third : (grammar.anchor .double ++ rest)[2]? ≠ some grammar.separator := by
        simpa [Grammar.anchor, List.head?_eq_getElem?] using clear
      have second : (grammar.anchor .double ++ rest)[1]? = some grammar.separator := rfl
      unfold Grammar.splitroot
      rw [if_neg (by simp [Grammar.anchor]), if_neg (by simp [second, third])]
      rfl

theorem splitOn_intercalate_kept {tail : List (List α)}
    (wellFormed : ∀ segment ∈ tail, grammar.IsSegment segment) :
    (([grammar.separator].intercalate tail).splitOn grammar.separator).filter grammar.keeps =
      tail := by
  by_cases empty : tail = []
  · subst empty
    rfl
  · rw [List.splitOn_intercalate grammar.separator
      (fun segment member => (wellFormed segment member).separatorFree) empty]
    refine List.filter_eq_self.mpr fun segment member => ?_
    obtain ⟨named, notDot, _⟩ := wellFormed segment member
    simp [Grammar.keeps, named, notDot]

theorem PurePath.parse_dot : parse grammar [grammar.dot] = ⟨.relative, [], nofun⟩ := by
  have clear : [grammar.dot].head? ≠ some grammar.separator := by
    simpa using grammar.distinct
  have single : [grammar.dot].splitOn grammar.separator = [[grammar.dot]] :=
    List.splitOn_eq_singleton (by simpa using grammar.distinct.symm)
  ext1
  · exact congrArg Prod.fst (Grammar.splitroot_relative clear)
  · change (List.splitOn _ (grammar.splitroot _).2).filter _ = _
    rw [Grammar.splitroot_relative clear, single]
    simp [Grammar.keeps]

/-- A path is the parse of the string it is written as. -/
@[simp] theorem PurePath.parse_str (path : PurePath grammar) :
    parse grammar path.str = path := by
  unfold PurePath.str
  split
  next blank =>
    rw [PurePath.parse_dot]
    exact PurePath.ext blank.1.symm blank.2.symm
  next =>
    have split := Grammar.splitroot_anchor (intercalate_head path.wellFormed) path.root
    ext1
    · exact congrArg Prod.fst split
    · change (List.splitOn _ (grammar.splitroot _).2).filter _ = _
      rw [split]
      exact splitOn_intercalate_kept path.wellFormed

/-- The segments of a path are those of its string that name something. -/
theorem PurePath.mem_tail_parse {path segment : List α} :
    segment ∈ (parse grammar path).tail ↔
      segment ∈ path.splitOn grammar.separator ∧ grammar.keeps segment = true := by
  change segment ∈ (List.splitOn _ (grammar.splitroot path).2).filter _ ↔ _
  rw [List.mem_filter]
  refine and_congr_left fun kept => ?_
  have named : segment ≠ [] := by
    rintro rfl
    simp [Grammar.keeps] at kept
  have drops : ∀ rest : List α, segment ∈ rest.splitOn grammar.separator ↔
      segment ∈ (grammar.separator :: rest).splitOn grammar.separator := by
    intro rest
    have split : (grammar.separator :: rest).splitOn grammar.separator =
        [] :: rest.splitOn grammar.separator := by
      have cut := List.splitOn_append_cons_self [] rest (a := grammar.separator)
      rwa [List.nil_append, List.splitOn_nil] at cut
    rw [split, List.mem_cons, or_iff_right named]
  unfold Grammar.splitroot
  split
  next => rfl
  next rooted =>
    obtain ⟨first, rest, rfl⟩ : ∃ first rest, path = first :: rest := by
      cases path with
      | nil => simp at rooted
      | cons first rest => exact ⟨first, rest, rfl⟩
    obtain rfl : first = grammar.separator := by simpa using rooted
    split
    next => exact drops rest
    next doubled =>
      obtain ⟨second, rest, rfl⟩ : ∃ second others, rest = second :: others := by
        cases rest with
        | nil => simp at doubled
        | cons second others => exact ⟨second, others, rfl⟩
      obtain rfl : second = grammar.separator := by
        have both := not_or.mp doubled
        simpa using both.1
      exact (drops rest).trans (drops _)

/-- A parsed path is written with the letters of its string, separators and dots. -/
theorem PurePath.mem_str_parse {path : List α} {letter : α}
    (member : letter ∈ (parse grammar path).str) :
    letter ∈ path ∨ letter = grammar.separator ∨ letter = grammar.dot := by
  unfold PurePath.str at member
  split at member
  next => exact .inr (.inr (List.mem_singleton.mp member))
  next =>
    rcases List.mem_append.mp member with anchored | written
    · refine .inr (.inl ?_)
      cases root : (parse grammar path).root with
      | relative => simp [root, Grammar.anchor] at anchored
      | single => simpa [root, Grammar.anchor] using anchored
      | double => simpa [root, Grammar.anchor] using anchored
    · obtain same | ⟨segment, among, inside⟩ := mem_intercalate written
      · exact .inr (.inl same)
      · have split := (mem_tail_parse.mp among).1
        rw [List.splitOn_eq_splitOnP] at split
        obtain ⟨_, before, after, whole, _⟩ := Between.of_mem split
        rw [whole]
        exact .inl (by simp [inside])

theorem PurePath.str_injective : Function.Injective (str : PurePath grammar → List α) := by
  intro first second same
  rw [← first.parse_str, ← second.parse_str, same]

end Parsing

end Cuprum.PathName
