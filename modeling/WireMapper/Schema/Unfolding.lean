import WireMapper.Schema.Basic

/-!
Wrappers: messages with a single field, which the domain holds in the wrapper's place. Unfolding
goes from a field that holds a wrapper to the field inside it. Wrappers can wrap each other in
circles, so a walk through them enters each wrapper once.
-/

namespace WireMapper.Schema

variable (s : Schema)

/-- The wrapper that a field holds, and the field inside it. A repeated field holds none. -/
def unfolding? (f : Field s.size) : Option (Fin s.size.messages × Field s.size) :=
  if f.isRepeated then none
  else do
    let wrapper ← s.target? f
    let inner ← (s.message wrapper).wrapped?
    return (wrapper, inner)

def unfolded? (f : Field s.size) : Option (Field s.size) :=
  (s.unfolding? f).map (·.2)

def isUnfolded (f : Field s.size) : Bool :=
  (s.unfolding? f).isSome

/-- Whether a field or one that is reached by unfolding it can be absent; `unentered` holds the
wrappers that were not entered yet. A wrapper that was entered before adds nothing. -/
def isNullableFrom (unentered : List (Fin s.size.messages)) (f : Field s.size) : Bool :=
  f.canBeAbsent ||
    match s.unfolding? f with
    | none => false
    | some (wrapper, inner) =>
      if wrapper ∈ unentered then isNullableFrom (unvisitedAfter wrapper unentered) inner else false
termination_by unentered.length
decreasing_by exact length_unvisitedAfter_lt ‹_›

def isNullable (f : Field s.size) : Bool :=
  s.isNullableFrom (List.finRange s.size.messages) f

end WireMapper.Schema
