import Mathlib.Data.Finset.Basic
import Mathlib.Data.Finmap

namespace Cuprum.Context

abbrev Program := String

/-! Overlays are layered key by key; an absent layer inherits. -/

section Overlay

variable {κ : Type} [DecidableEq κ] {ν : Type}

abbrev Overlay (κ ν : Type) := Finmap fun _ : κ => ν

def mergeOverlays (parent child : Option (Overlay κ ν)) : Option (Overlay κ ν) :=
  match parent, child with
  | none, none => none
  | none, some child => some child
  | some parent, none => some parent
  | some parent, some child => some (child ∪ parent)

end Overlay

inductive EnvMode
  | inherit
  | overlay
  | replace
  deriving DecidableEq

inductive EnvOverlayValue
  | set (value : String)
  | unset
  deriving DecidableEq

abbrev EnvOverlay := Overlay String EnvOverlayValue

def mergeEnvOverlays (parent child : Option EnvOverlay) : Option EnvOverlay :=
  mergeOverlays parent child

/-- A replacement child drops every parent layer. -/
def resolveEnvPolicy (parentOverlay : Option EnvOverlay) (parentMode : EnvMode)
    (childOverlay : Option EnvOverlay) (childMode : EnvMode) :
    Option EnvOverlay × EnvMode :=
  if childMode = .replace then (mergeEnvOverlays none childOverlay, .replace)
  else (mergeEnvOverlays parentOverlay childOverlay, parentMode)

def mergeExecutableBindings {Binding : Type}
    (parent child : Option (Overlay Program Binding)) :
    Option (Overlay Program Binding) :=
  mergeOverlays parent child

/-! The narrowing policy. -/

def narrowAllowlist (parent : Finset Program) (config : Option (Finset Program))
    (parentIsRestricted : Bool) : Finset Program :=
  match config with
  | none => parent
  | some config =>
      if parentIsRestricted ∧ parent = ∅ then parent
      else if parent ≠ ∅ then parent ∩ config
      else config

def isNarrowedAllowlistRestricted (config : Option (Finset Program))
    (parentIsRestricted : Bool) : Bool :=
  parentIsRestricted || config.isSome

def mergeHooks {Hook : Type} (parent config : List Hook) (scopedFirst : Bool) :
    List Hook :=
  if scopedFirst then config ++ parent else parent ++ config

def resolveNarrowedTimeout {Timeout : Type} (parent config : Option Timeout) :
    Option Timeout :=
  match config with
  | none => parent
  | some config => some config

def resolveNarrowedCatalogue {Catalogue : Type} (parent config : Option Catalogue) :
    Option Catalogue :=
  match config with
  | none => parent
  | some config => some config

end Cuprum.Context
