import WireMapper.Proofs.Mapping.Message

/-!
Where the outcome of a field is found in the mapping of its message. Mapped fields, skipped fields
and diagnostics are each picked from the outcomes and bear the name of the field that they are
about. So each of the three lists follows the order of the outcomes, and where no name is used twice
it tells of a field what the field's outcome tells, and nothing else.
-/

namespace WireMapper.Mapping

namespace FieldOutcome

def mapped? : FieldOutcome → Option FieldMapping
  | mapped mapping => some mapping
  | _ => none

def skipped? : FieldOutcome → Option String
  | skipped field => some field
  | _ => none

/-- What is picked from an outcome bears the name of its field. -/
def PicksNamed {α : Type} (pick : FieldOutcome → Option α) (name : α → String) : Prop :=
  ∀ outcome x, pick outcome = some x → name x = outcome.field

theorem picksNamed_mapped? : PicksNamed mapped? (·.field) := by
  intro outcome mapping h
  cases outcome with
  | mapped => cases h; rfl
  | skipped => cases h
  | failed => cases h

theorem picksNamed_skipped? : PicksNamed skipped? id := by
  intro outcome field h
  cases outcome with
  | mapped => cases h
  | skipped => cases h; rfl
  | failed => cases h

theorem picksNamed_diagnostic? (message : String) : PicksNamed (diagnostic? message) (·.field) := by
  intro outcome d h
  cases outcome with
  | mapped mapping =>
      simp only [diagnostic?] at h
      split at h
      · cases h
      · cases h
        rfl
  | skipped => cases h
  | failed => cases h; rfl

section

variable {α : Type} {pick : FieldOutcome → Option α} {name : α → String}
  {outcomes : List FieldOutcome}

/-- What is picked follows the order of the outcomes. -/
theorem PicksNamed.sublist (h : PicksNamed pick name) :
    ((outcomes.filterMap pick).map name).Sublist (outcomes.map (·.field)) := by
  induction outcomes with
  | nil => exact .slnil
  | cons outcome outcomes ih =>
      cases hpick : pick outcome with
      | none =>
          rw [List.filterMap_cons_none hpick, List.map_cons]
          exact ih.cons _
      | some x =>
          rw [List.filterMap_cons_some hpick, List.map_cons, List.map_cons, h outcome x hpick]
          exact ih.cons_cons _

/-- Nothing stands under a name that no outcome bears. -/
theorem PicksNamed.filter_eq_nil (h : PicksNamed pick name) {field : String}
    (hfield : field ∉ outcomes.map (·.field)) :
    (outcomes.filterMap pick).filter (name · = field) = [] := by
  rw [List.filter_eq_nil_iff]
  intro x hx hname
  have hmem : name x ∈ (outcomes.filterMap pick).map name := List.mem_map_of_mem hx
  rw [of_decide_eq_true hname] at hmem
  exact hfield (h.sublist.subset hmem)

/-- Under the name of a field there is what is picked from its outcome. -/
theorem PicksNamed.filter_eq (h : PicksNamed pick name)
    (hdistinct : (outcomes.map (·.field)).Nodup) {outcome : FieldOutcome}
    (houtcome : outcome ∈ outcomes) :
    (outcomes.filterMap pick).filter (name · = outcome.field) = (pick outcome).toList := by
  induction outcomes with
  | nil => cases houtcome
  | cons first outcomes ih =>
      rw [List.map_cons, List.nodup_cons] at hdistinct
      rcases List.mem_cons.mp houtcome with rfl | hrest
      · cases hpick : pick outcome with
        | none =>
            rw [List.filterMap_cons_none hpick, h.filter_eq_nil hdistinct.1]
            rfl
        | some x =>
            have hname : name x = outcome.field := h outcome x hpick
            rw [List.filterMap_cons_some hpick, List.filter_cons_of_pos (by simpa using hname),
              h.filter_eq_nil hdistinct.1]
            rfl
      · have hother : first.field ≠ outcome.field := by
          intro hsame
          exact hdistinct.1 (hsame ▸ List.mem_map_of_mem hrest)
        cases hpick : pick first with
        | none =>
            rw [List.filterMap_cons_none hpick]
            exact ih hdistinct.2 hrest
        | some x =>
            have hname : ¬name x = outcome.field := by
              rw [h first x hpick]
              exact hother
            rw [List.filterMap_cons_some hpick,
              List.filter_cons_of_neg (by simpa using hname)]
            exact ih hdistinct.2 hrest

end

end FieldOutcome

namespace MessageMapping

variable (mapping : MessageMapping) (field : String)

def fieldsOf : List FieldMapping :=
  mapping.fields.filter (·.field = field)

def diagnosticsOf : List Diagnostic :=
  mapping.diagnostics.filter (·.field = field)

variable {mapping} {outcome : FieldOutcome}

/-- The mapping of a message tells of a field what the field's outcome tells. -/
structure Tells (mapping : MessageMapping) (outcome : FieldOutcome) : Prop where
  fields : mapping.fieldsOf outcome.field = outcome.mapped?.toList
  skipped : outcome.field ∈ mapping.skipped ↔ outcome = .skipped outcome.field
  diagnostics : mapping.diagnosticsOf outcome.field = (outcome.diagnostic? mapping.message).toList

/-- Where names differ, each of the three lists tells of a field what its outcome tells. -/
theorem tells_of_mem (hdistinct : (mapping.outcomes.map (·.field)).Nodup)
    (houtcome : outcome ∈ mapping.outcomes) : mapping.Tells outcome := by
  refine ⟨?_, ?_, ?_⟩
  · exact FieldOutcome.picksNamed_mapped?.filter_eq hdistinct houtcome
  · have hfilter := FieldOutcome.picksNamed_skipped?.filter_eq hdistinct houtcome
    have hmem : outcome.field ∈ mapping.skipped ↔
        mapping.skipped.filter (id · = outcome.field) ≠ [] := by
      simp [List.filter_eq_nil_iff]
    rw [hmem]
    change (mapping.outcomes.filterMap FieldOutcome.skipped?).filter _ ≠ [] ↔ _
    rw [hfilter]
    cases outcome <;> simp [FieldOutcome.skipped?, FieldOutcome.field]
  · exact (FieldOutcome.picksNamed_diagnostic? mapping.message).filter_eq hdistinct houtcome

end MessageMapping

end WireMapper.Mapping
