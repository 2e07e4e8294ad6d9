import Mathlib.Logic.Function.Basic

namespace Cuprum.Layering

variable {Name Value : Type}

/-! A change says of some names what they are to hold, which may be nothing, and is
silent about the others. -/

def Change (Name Value : Type) := Name → Option (Option Value)

def Change.silent : Change Name Value := fun _ => none

def Change.apply (change : Change Name Value) (mapping : Name → Option Value) :
    Name → Option Value :=
  fun name => (change name).getD (mapping name)

def Change.onTop (later earlier : Change Name Value) : Change Name Value :=
  fun name => (later name).or (earlier name)

@[simp] theorem Change.apply_silent (mapping : Name → Option Value) :
    silent.apply mapping = mapping :=
  rfl

theorem Change.apply_onTop (later earlier : Change Name Value) (mapping : Name → Option Value) :
    (later.onTop earlier).apply mapping = later.apply (earlier.apply mapping) := by
  funext name
  unfold apply onTop
  cases later name with
  | none => rfl
  | some held => rfl

/-! A layer changes the mapping below it, or begins from an empty one. -/

@[ext]
structure Layer (Name Value : Type) where
  fresh : Bool
  change : Change Name Value

namespace Layer

def identity : Layer Name Value := ⟨false, .silent⟩

def apply (layer : Layer Name Value) (mapping : Name → Option Value) : Name → Option Value :=
  layer.change.apply (if layer.fresh then fun _ => none else mapping)

def andThen (earlier later : Layer Name Value) : Layer Name Value :=
  if later.fresh then later else ⟨earlier.fresh, later.change.onTop earlier.change⟩

@[simp] theorem apply_identity (mapping : Name → Option Value) :
    (identity : Layer Name Value).apply mapping = mapping :=
  rfl

theorem apply_fresh {layer : Layer Name Value} (fresh : layer.fresh = true)
    (mapping other : Name → Option Value) : layer.apply mapping = layer.apply other := by
  unfold apply
  rw [if_pos fresh, if_pos fresh]

theorem andThen_of_fresh {earlier later : Layer Name Value} (fresh : later.fresh = true) :
    earlier.andThen later = later :=
  if_pos fresh

theorem andThen_of_laid {earlier later : Layer Name Value} (laid : later.fresh = false) :
    earlier.andThen later = ⟨earlier.fresh, later.change.onTop earlier.change⟩ := by
  unfold andThen
  rw [laid, if_neg Bool.false_ne_true]

theorem apply_andThen (earlier later : Layer Name Value) (mapping : Name → Option Value) :
    (earlier.andThen later).apply mapping = later.apply (earlier.apply mapping) := by
  cases fresh : later.fresh with
  | true =>
      rw [andThen_of_fresh fresh]
      exact apply_fresh fresh _ _
  | false =>
      rw [andThen_of_laid fresh]
      unfold apply
      rw [Change.apply_onTop, fresh, if_neg Bool.false_ne_true]

/-! A layer that leaves every mapping as it is says nothing. -/

theorem andThen_eq_identity_iff {earlier later : Layer Name Value} :
    earlier.andThen later = identity ↔ earlier = identity ∧ later = identity := by
  cases fresh : later.fresh with
  | true =>
      rw [andThen_of_fresh fresh]
      constructor
      · intro same
        rw [same] at fresh
        exact absurd fresh Bool.false_ne_true
      · exact fun both => both.2
  | false =>
      rw [andThen_of_laid fresh]
      constructor
      · intro same
        obtain ⟨laid, silent⟩ := Layer.mk.inj same
        have quiet := fun name => Option.or_eq_none_iff.mp (congrFun silent name)
        exact ⟨Layer.ext laid (funext fun name => (quiet name).2),
          Layer.ext fresh (funext fun name => (quiet name).1)⟩
      · rintro ⟨rfl, rfl⟩
        rfl

theorem foldl_eq_identity_iff {layers : List (Layer Name Value)} {below : Layer Name Value} :
    layers.foldl andThen below = identity ↔
      below = identity ∧ ∀ layer ∈ layers, layer = identity := by
  induction layers generalizing below with
  | nil => simp
  | cons layer layers induction =>
      rw [List.foldl_cons, induction, andThen_eq_identity_iff, List.forall_mem_cons, and_assoc]

theorem eq_identity_of_apply [DecidableEq Name] [Nonempty Name] [Nonempty Value]
    {layer : Layer Name Value} (empty : layer.apply (fun _ => none) = fun _ => none)
    (single : ∀ name value, layer.apply (Function.update (fun _ => none) name (some value)) =
      Function.update (fun _ => none) name (some value)) : layer = identity := by
  obtain ⟨other⟩ := ‹Nonempty Value›
  have laid : layer.fresh = false := by
    by_contra fresh
    obtain ⟨name⟩ := ‹Nonempty Name›
    have same := apply_fresh (by simpa using fresh) (fun _ => none)
      (Function.update (fun _ => none) name (some other))
    rw [empty, single] at same
    have held := congrFun same name
    simp at held
  ext1
  · exact laid
  · funext name
    have held := congrFun (single name other) name
    have added := congrFun empty name
    cases changed : layer.change name with
    | none => rfl
    | some change =>
        cases change with
        | none => simp [apply, Change.apply, changed] at held
        | some value => simp [apply, Change.apply, changed] at added

theorem apply_foldl (layers : List (Layer Name Value)) (below : Layer Name Value)
    (mapping : Name → Option Value) :
    (layers.foldl andThen below).apply mapping =
      layers.foldl (fun reached layer => layer.apply reached) (below.apply mapping) := by
  induction layers generalizing below with
  | nil => rfl
  | cons layer layers induction =>
      rw [List.foldl_cons, List.foldl_cons, induction, apply_andThen]

end Layer

end Cuprum.Layering
