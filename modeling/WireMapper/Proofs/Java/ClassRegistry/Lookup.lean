import WireMapper.Java.ClassRegistry

/-!
What a registry finds under a name. Each class is kept under its own name, so a class that any name
led to is found again under the name that it has. This is what lets a walk know the classes it has
visited by their names, for all that superclasses may be named without their package.
-/

namespace WireMapper.Java.ClassRegistry

variable {registry : ClassRegistry} {name : String} {c : LibraryClass}

theorem name_of_get? (h : registry.get? name = some c) : c.name = name := by
  simpa using List.find?_some h

theorem mem_of_get? (h : registry.get? name = some c) : c ∈ registry.classes :=
  List.mem_of_find?_eq_some h

theorem get?_eq_none_iff : registry.get? name = none ↔ ∀ c ∈ registry.classes, c.name ≠ name := by
  simp [get?]

theorem load?_of_get? (h : registry.get? name = some c) : registry.load? name = some c := by
  rw [load?, h]

theorem load?_of_dotted (h : '.' ∈ name.toList) : registry.load? name = registry.get? name := by
  rw [load?]
  cases registry.get? name with
  | some c => rfl
  | none => exact if_pos h

/-- Only a name without dots is looked for in `java.lang`. -/
theorem load?_of_simple (hname : registry.get? name = none) (hsimple : '.' ∉ name.toList) :
    registry.load? name = registry.get? ("java.lang." ++ name) := by
  rw [load?, hname]
  exact if_neg hsimple

/-- The two ways in which a name leads to a class. -/
theorem get?_of_load? (h : registry.load? name = some c) :
    registry.get? name = some c ∨
      registry.get? name = none ∧ '.' ∉ name.toList ∧
        registry.get? ("java.lang." ++ name) = some c := by
  cases hname : registry.get? name with
  | some d => exact Or.inl (by rwa [load?_of_get? hname] at h)
  | none =>
      by_cases hdot : '.' ∈ name.toList
      · rw [load?_of_dotted hdot, hname] at h
        cases h
      · exact Or.inr ⟨rfl, hdot, by rwa [load?_of_simple hname hdot] at h⟩

/-- A name leads nowhere if it is not registered itself and has no reading in `java.lang`. -/
theorem load?_eq_none_iff : registry.load? name = none ↔
    registry.get? name = none ∧
      ('.' ∈ name.toList ∨ registry.get? ("java.lang." ++ name) = none) := by
  constructor
  · intro h
    have hname : registry.get? name = none := by
      rw [Option.eq_none_iff_forall_ne_some]
      intro c hc
      rw [load?_of_get? hc] at h
      cases h
    refine ⟨hname, ?_⟩
    by_cases hdot : '.' ∈ name.toList
    · exact Or.inl hdot
    · exact Or.inr (by rwa [load?_of_simple hname hdot] at h)
  · rintro ⟨hname, hlang⟩
    by_cases hdot : '.' ∈ name.toList
    · rw [load?_of_dotted hdot, hname]
    · rw [load?_of_simple hname hdot]
      exact hlang.resolve_left hdot

/-- A class that a name leads to is the one that is kept under its own name. -/
theorem get?_name_of_load? (h : registry.load? name = some c) : registry.get? c.name = some c := by
  rcases get?_of_load? h with hname | ⟨-, -, hlang⟩
  · rwa [name_of_get? hname]
  · rwa [name_of_get? hlang]

end WireMapper.Java.ClassRegistry
