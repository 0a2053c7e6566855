import WireMapper.Config

/-!
Which configurations are accepted. The roots are gone through with those before them, so a list of
roots is passed if each of them is written, none is the same path as one before the list, and no two
of them are the same path. What is left to check does not look at where a root leads.
-/

namespace WireMapper.Config

variable {config : Config} {before roots : List Path}

/-- Roots are passed behind others if each of them passes on its own and beside all the rest. -/
theorem rootFault?_eq_none_iff : rootFault? before roots = none ↔
    (∀ root ∈ roots, root.text ≠ "") ∧
      (∀ root ∈ roots, ∀ other ∈ before, other.components ≠ root.components) ∧
      roots.Pairwise fun p q => p.components ≠ q.components := by
  induction roots generalizing before with
  | nil => simp [rootFault?]
  | cons root roots ih =>
      rw [rootFault?]
      split
      · rename_i hempty
        simp [hempty]
      split
      · rename_i hlisted
        obtain ⟨other, hother, hsame⟩ := List.any_eq_true.mp hlisted
        refine iff_of_false (Option.some_ne_none _) fun h => ?_
        exact h.2.1 root List.mem_cons_self other hother (of_decide_eq_true hsame)
      · rename_i hwritten hnew
        have hapart : ∀ other ∈ before, other.components ≠ root.components := by
          intro other hother hsame
          exact hnew (List.any_eq_true.mpr ⟨other, hother, decide_eq_true hsame⟩)
        simp only [ih, List.forall_mem_append, List.forall_mem_singleton, List.forall_mem_cons,
          List.pairwise_cons]
        constructor
        · rintro ⟨htexts, hbefore, hpairs⟩
          exact ⟨⟨hwritten, htexts⟩, ⟨hapart, fun p hp => (hbefore p hp).1⟩,
            fun p hp => (hbefore p hp).2, hpairs⟩
        · rintro ⟨⟨_, htexts⟩, ⟨_, hbefore⟩, hroot, hpairs⟩
          exact ⟨htexts, fun p hp => ⟨hbefore p hp, hroot p hp⟩, hpairs⟩

/-- What is right about a configuration apart from its roots being written at all. -/
structure IsSound (config : Config) : Prop where
  distinct : config.sourceRoots.Pairwise fun p q => p.components ≠ q.components
  level : isLogLevel config.logLevel = true
  builder : Text.isBlank config.output.builderName = false
  parameter : Text.isBlank config.output.wireParameter = false

/-- The checks one by one; that of the roots alone goes through a list. -/
theorem fault?_eq_none_iff : config.fault? = none ↔
    config.sourceRoots ≠ [] ∧ rootFault? [] config.sourceRoots = none ∧
      isLogLevel config.logLevel = true ∧ Text.isBlank config.output.builderName = false ∧
      Text.isBlank config.output.wireParameter = false := by
  rw [fault?]
  split
  · rename_i hempty
    simp [List.isEmpty_iff.mp hempty]
  split
  · rename_i hfault
    simp [hfault]
  · rename_i hroots _ hnone
    have hsome : config.sourceRoots ≠ [] := fun hempty => hroots (List.isEmpty_iff.mpr hempty)
    rw [hnone]
    cases isLogLevel config.logLevel <;> cases Text.isBlank config.output.builderName <;>
      cases Text.isBlank config.output.wireParameter <;> simp [hsome]

/-- A configuration is accepted if it has roots, each of them is written, and all else is sound. -/
theorem validate_eq_ok_iff : config.validate = .ok () ↔
    config.sourceRoots ≠ [] ∧ (∀ root ∈ config.sourceRoots, root.text ≠ "") ∧ config.IsSound := by
  have hfault : config.validate = .ok () ↔ config.fault? = none := by
    rw [validate]
    cases config.fault? <;> simp
  rw [hfault, fault?_eq_none_iff, rootFault?_eq_none_iff]
  constructor
  · rintro ⟨hsome, ⟨hwritten, _, hdistinct⟩, hlevel, hbuilder, hparameter⟩
    exact ⟨hsome, hwritten, hdistinct, hlevel, hbuilder, hparameter⟩
  · rintro ⟨hsome, hwritten, hdistinct, hlevel, hbuilder, hparameter⟩
    have hfirst : ∀ root ∈ config.sourceRoots, ∀ other ∈ ([] : List Path),
        other.components ≠ root.components := fun _ _ _ hother => absurd hother List.not_mem_nil
    exact ⟨hsome, ⟨hwritten, hfirst, hdistinct⟩, hlevel, hbuilder, hparameter⟩

end WireMapper.Config
