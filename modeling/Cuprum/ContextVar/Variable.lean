import Mathlib.Logic.Function.Basic

namespace Cuprum.ContextVar

universe u

variable {α : Type u}

/-- What restores a variable to the value it had, once and in the logical context that
set it. -/
structure Token (α : Type u) where
  home : Nat
  oldValue : α
  used : Bool

/-- A variable with a value in each logical context, and the tokens of its settings. -/
structure Variable (α : Type u) where
  values : Nat → α
  tokens : List (Token α)

inductive ResetError
  | alreadyUsed
  | otherContext
  deriving DecidableEq

namespace Variable

def initial (default : α) : Variable α :=
  ⟨fun _ => default, []⟩

def get (self : Variable α) (context : Nat) : α :=
  self.values context

/-- Set the variable in a context; the token is the one after those given so far. -/
def set (self : Variable α) (context : Nat) (value : α) : Nat × Variable α :=
  (self.tokens.length,
    { values := Function.update self.values context value
      tokens := self.tokens ++ [⟨context, self.values context, false⟩] })

def reset (self : Variable α) (context token : Nat) : Except ResetError (Variable α) :=
  match self.tokens[token]? with
  | none => .error .otherContext
  | some held =>
      if held.used then .error .alreadyUsed
      else if held.home = context then
        .ok
          { values := Function.update self.values context held.oldValue
            tokens := self.tokens.set token { held with used := true } }
      else .error .otherContext

/-- A logical context starts as a copy of its creator's. -/
def copy (self : Variable α) (creator created : Nat) : Variable α :=
  { self with values := Function.update self.values created (self.values creator) }

@[simp] theorem get_set (self : Variable α) (context : Nat) (value : α) :
    (self.set context value).2.get context = value :=
  Function.update_self ..

theorem get_set_of_ne (self : Variable α) {context other : Nat} (differ : other ≠ context)
    (value : α) : (self.set context value).2.get other = self.get other :=
  Function.update_of_ne differ ..

@[simp] theorem set_fst (self : Variable α) (context : Nat) (value : α) :
    (self.set context value).1 = self.tokens.length := rfl

@[simp] theorem tokens_set (self : Variable α) (context : Nat) (value : α) :
    (self.set context value).2.tokens =
      self.tokens ++ [⟨context, self.get context, false⟩] := rfl

@[simp] theorem get_copy (self : Variable α) (creator created : Nat) :
    (self.copy creator created).get created = self.get creator :=
  Function.update_self ..

theorem get_copy_of_ne (self : Variable α) {created other : Nat} (differ : other ≠ created)
    (creator : Nat) : (self.copy creator created).get other = self.get other :=
  Function.update_of_ne differ ..

theorem token_set_of_some {self : Variable α} {token : Nat} {held : Token α}
    (found : self.tokens[token]? = some held) (context : Nat) (value : α) :
    (self.set context value).2.tokens[token]? = some held := by
  obtain ⟨below, _⟩ := List.getElem?_eq_some_iff.mp found
  rw [tokens_set, List.getElem?_append_left below, found]

theorem token_set_new (self : Variable α) (context : Nat) (value : α) :
    (self.set context value).2.tokens[self.tokens.length]? =
      some ⟨context, self.get context, false⟩ := by
  rw [tokens_set, List.getElem?_concat_length]

/-- A reset takes an unused token of the context it is made in. -/
theorem reset_isOk_iff {self : Variable α} {context token : Nat} :
    (∃ after, self.reset context token = .ok after) ↔
      ∃ oldValue, self.tokens[token]? = some ⟨context, oldValue, false⟩ := by
  unfold reset
  constructor
  · intro succeeds
    obtain ⟨after, equal⟩ := succeeds
    split at equal
    next => cases equal
    next held found =>
      split at equal
      next => cases equal
      next unused =>
        split at equal
        next home =>
          obtain ⟨home', oldValue, used⟩ := held
          subst home
          exact ⟨oldValue, found.trans (by simpa using unused)⟩
        next => cases equal
  · intro token
    obtain ⟨oldValue, found⟩ := token
    simp [found]

theorem reset_of_token {self : Variable α} {context token : Nat} {oldValue : α}
    (found : self.tokens[token]? = some ⟨context, oldValue, false⟩) :
    self.reset context token = .ok
      { values := Function.update self.values context oldValue
        tokens := self.tokens.set token ⟨context, oldValue, true⟩ } := by
  simp [reset, found]

end Variable

end Cuprum.ContextVar
