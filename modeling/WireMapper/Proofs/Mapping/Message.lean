import WireMapper.Mapping.Message
import WireMapper.Proofs.Schema.Declarations

/-!
What becomes of the fields of a message. Each field has one outcome, which bears its name and goes
to one of three places: the mapped fields, the skipped ones, or the errors. The mapping of a message
therefore holds each field once, whatever the cache knew before and whichever fields failed.
-/

namespace WireMapper.Mapping

open Hierarchy (Cache)

def Access.isAssumed : Access → Bool
  | resolved _ => false
  | assumedDirect _ => true

def FieldOutcome.field : FieldOutcome → String
  | mapped m => m.field
  | skipped field => field
  | failed field _ => field

/-- An outcome is one of a field if it bears the field's name, and leaves it out if the field is
marked as unused. -/
structure FieldOutcome.IsOf {size : SchemaSize} (o : FieldOutcome) (f : Field size) : Prop where
  field : o.field = f.declaredName
  skipped : o = .skipped f.declaredName ↔ f.options.unused = true

namespace MessageMapping

def warnings (m : MessageMapping) : List Diagnostic :=
  m.diagnostics.filter (·.severity = .warning)

def errors (m : MessageMapping) : List Diagnostic :=
  m.diagnostics.filter (·.severity = .error)

def assumed (m : MessageMapping) : List FieldMapping :=
  m.fields.filter (·.domain.access.isAssumed)

/-- The names under which the fields of a message are found in its mapping: mapped, skipped, failed.
-/
def accounted (m : MessageMapping) : List String :=
  m.fields.map (·.field) ++ m.skipped ++ m.errors.map (·.field)

variable {message domainClass : String} {outcomes : List FieldOutcome}

theorem errors_mapped (m : FieldMapping) :
    errors ⟨message, domainClass, .mapped m :: outcomes⟩ =
      errors ⟨message, domainClass, outcomes⟩ := by
  cases h : m.domain.access <;> simp [errors, diagnostics, FieldOutcome.diagnostic?, h]

/-- Each outcome goes to one of the three places. -/
theorem accounted_cons (o : FieldOutcome) :
    (accounted ⟨message, domainClass, o :: outcomes⟩).Perm
      (o.field :: accounted ⟨message, domainClass, outcomes⟩) := by
  cases o with
  | mapped m =>
      rw [accounted, errors_mapped]
      exact .rfl
  | skipped field => exact List.perm_middle.append_right _
  | failed field e => exact List.perm_middle

/-- The three places together hold the name of each outcome. -/
theorem accounted_perm (m : MessageMapping) : m.accounted.Perm (m.outcomes.map (·.field)) := by
  obtain ⟨message, domainClass, outcomes⟩ := m
  induction outcomes with
  | nil => exact .nil
  | cons o outcomes ih => exact (accounted_cons o).trans (ih.cons _)

/-- A warning stands for each mapping that rests on a guess, and for nothing else. -/
theorem warnings_field (m : MessageMapping) :
    m.warnings.map (·.field) = m.assumed.map (·.field) := by
  obtain ⟨message, domainClass, outcomes⟩ := m
  induction outcomes with
  | nil => rfl
  | cons o outcomes ih =>
      cases o with
      | mapped m =>
          cases h : m.domain.access <;>
            simpa [warnings, assumed, diagnostics, fields, FieldOutcome.diagnostic?, h,
              Access.isAssumed] using ih
      | skipped field => exact ih
      | failed field e => exact ih

theorem message_of_mem_diagnostics {m : MessageMapping} {d : Diagnostic} (hd : d ∈ m.diagnostics) :
    d.message = m.message := by
  obtain ⟨o, -, ho⟩ := List.mem_filterMap.mp hd
  cases o with
  | mapped mapping =>
      simp only [FieldOutcome.diagnostic?] at ho
      split at ho
      · cases ho
      · cases ho; rfl
  | skipped field => cases ho
  | failed field e => cases ho; rfl

section

variable {size : SchemaSize} {fields : List (Field size)} {m : MessageMapping}

theorem names_of_outcomes (h : List.Forall₂ FieldOutcome.IsOf m.outcomes fields) :
    m.outcomes.map (·.field) = fields.map (·.declaredName) := by
  have hnames : List.Forall₂ (· = ·) (m.outcomes.map (·.field)) (fields.map (·.declaredName)) :=
    List.forall₂_map_left_iff.mpr (List.forall₂_map_right_iff.mpr (h.imp fun _ _ ho => ho.field))
  rwa [List.forall₂_eq_eq_eq] at hnames

/-- The skipped fields are those that are marked as unused, in order. -/
theorem skipped_of_outcomes (h : List.Forall₂ FieldOutcome.IsOf m.outcomes fields) :
    m.skipped = (fields.filter (·.options.unused)).map (·.declaredName) := by
  obtain ⟨message, domainClass, outcomes⟩ := m
  dsimp only at h
  induction h with
  | nil => rfl
  | @cons o f outcomes fields ho hrest ih =>
      rw [List.filter_cons]
      cases o with
      | skipped field =>
          obtain rfl : field = f.declaredName := ho.field
          rw [if_pos (ho.skipped.mp rfl), List.map_cons, ← ih]
          rfl
      | mapped mapping =>
          have hused : ¬f.options.unused = true := fun h => nomatch ho.skipped.mpr h
          rw [if_neg hused, ← ih]
          rfl
      | failed field e =>
          have hused : ¬f.options.unused = true := fun h => nomatch ho.skipped.mpr h
          rw [if_neg hused, ← ih]
          rfl

end

end MessageMapping

namespace Generator

variable {g : Generator} {m : Fin g.schema.size.messages} {f : Field g.schema.size} {cache : Cache}

variable (m f cache) in
/-- A field has no domain side exactly if it is marked as unused. -/
theorem domainField_eq_none :
    (g.domainField m f cache).1 = .ok none ↔ f.options.unused = true := by
  rw [domainField]
  split
  · rename_i hunused
    exact iff_of_true rfl hunused
  · rename_i hunused
    refine iff_of_false ?_ hunused
    split
    · simp
    · split <;> simp

theorem field_of_mapField {d : DomainField} {mapping : FieldMapping}
    (h : g.mapField m f d = .ok mapping) : mapping.field = f.declaredName := by
  obtain ⟨toWire, -, h⟩ := bind_eq_ok.mp h
  obtain ⟨fromWire, -, h⟩ := bind_eq_ok.mp h
  cases pure_eq_ok.mp h
  rfl

/-- Each field has one outcome, of its own name. -/
theorem outcome_isOf : (g.outcome m f cache).1.IsOf f := by
  have hnone := domainField_eq_none m f cache
  rw [outcome]
  split
  · rename_i h
    rw [h] at hnone
    exact ⟨rfl, by simpa using hnone⟩
  · rename_i h
    rw [h] at hnone
    exact ⟨rfl, by simpa using hnone⟩
  · rename_i h
    rw [h] at hnone
    split
    · exact ⟨rfl, by simpa using hnone⟩
    · rename_i hmapping
      exact ⟨field_of_mapField hmapping, by simpa using hnone⟩

/-- What a field comes to does not keep the fields after it from coming to something. -/
theorem outcomes_isOf (fields : List (Field g.schema.size)) :
    List.Forall₂ FieldOutcome.IsOf (g.outcomes m fields cache).1 fields := by
  induction fields generalizing cache with
  | nil => exact .nil
  | cons f fields ih => exact .cons outcome_isOf ih

end Generator

/-- The mapping of a message accounts for its fields. Each of them stands in exactly one place and
stands there once: among the mapped fields, among the skipped ones, where exactly those are that are
marked as unused, or among the errors. A warning stands for each field whose mapping rests on a
guess, and for nothing else. -/
structure Accounted (s : Schema) (m : Fin s.size.messages) (mapping : MessageMapping) : Prop where
  message : mapping.message = (s.message m).fullName
  distinct : ((s.message m).fields.map (·.declaredName)).Nodup
  once : mapping.accounted.Perm ((s.message m).fields.map (·.declaredName))
  skipped : ∀ f ∈ (s.message m).fields,
    f.declaredName ∈ mapping.skipped ↔ f.options.unused = true
  warnings : mapping.warnings.map (·.field) = mapping.assumed.map (·.field)
  diagnostics : ∀ d ∈ mapping.diagnostics, d.message = (s.message m).fullName

/-- Some field of a message is in use and was not mapped. -/
def LeavesOut (s : Schema) (m : Fin s.size.messages) (mapping : MessageMapping) : Prop :=
  ∃ f ∈ (s.message m).fields,
    f.options.unused = false ∧ f.declaredName ∉ mapping.fields.map (·.field)

namespace Accounted

variable {s : Schema} {m : Fin s.size.messages} {mapping : MessageMapping}

/-- The three places share no names. -/
theorem nodup_accounted (h : Accounted s m mapping) : mapping.accounted.Nodup :=
  h.once.nodup_iff.mpr h.distinct

/-- The sizes of the three lists add up to the number of fields. -/
theorem length (h : Accounted s m mapping) :
    mapping.fields.length + mapping.skipped.length + mapping.errors.length =
      (s.message m).fields.length := by
  simpa [MessageMapping.accounted, Nat.add_assoc] using h.once.length_eq

/-- There are errors if a field that is used was not mapped, and only then. -/
theorem errors_ne_nil_iff (h : Accounted s m mapping) :
    mapping.errors ≠ [] ↔ LeavesOut s m mapping := by
  obtain ⟨-, -, herrors⟩ := List.nodup_append.mp h.nodup_accounted
  constructor
  · intro hne
    obtain ⟨d, hd⟩ := List.exists_mem_of_ne_nil _ hne
    have hfield : d.field ∈ mapping.errors.map (·.field) := List.mem_map_of_mem hd
    obtain ⟨f, hf, hname⟩ := List.mem_map.mp (h.once.subset (List.mem_append_right _ hfield))
    rw [← hname] at hfield
    refine ⟨f, hf, ?_, fun hmapped => ?_⟩
    · rw [Bool.eq_false_iff, Ne, ← h.skipped f hf]
      exact fun hskip => herrors _ (List.mem_append_right _ hskip) _ hfield rfl
    · exact herrors _ (List.mem_append_left _ hmapped) _ hfield rfl
  · rintro ⟨f, hf, hused, hunmapped⟩ hnil
    have hname := h.once.symm.subset (List.mem_map_of_mem (f := (·.declaredName)) hf)
    rw [MessageMapping.accounted, hnil, List.map_nil, List.append_nil, List.mem_append,
      h.skipped f hf, hused] at hname
    simp [hunmapped] at hname

end Accounted

namespace Generator

variable {g : Generator} {cache : Cache}

/-- The mapping of a message accounts for its fields if their names differ. -/
theorem mapMessage_accounted (hdistinct : g.schema.FieldsDistinct)
    (m : Fin g.schema.size.messages) : Accounted g.schema m (g.mapMessage m cache).1 := by
  have houtcomes : List.Forall₂ FieldOutcome.IsOf (g.mapMessage m cache).1.outcomes
      (g.schema.message m).fields := outcomes_isOf _
  refine ⟨rfl, hdistinct m, ?_, fun f hf => ?_, MessageMapping.warnings_field _,
    fun d hd => MessageMapping.message_of_mem_diagnostics hd⟩
  · rw [← MessageMapping.names_of_outcomes houtcomes]
    exact MessageMapping.accounted_perm _
  · rw [MessageMapping.skipped_of_outcomes houtcomes, List.mem_map]
    constructor
    · rintro ⟨f', hf', hname⟩
      obtain ⟨hf', hunused⟩ := List.mem_filter.mp hf'
      rwa [← List.inj_on_of_nodup_map (hdistinct m) hf' hf hname]
    · exact fun hunused => ⟨f, List.mem_filter.mpr ⟨hf, hunused⟩, rfl⟩

/-- Messages are accounted for one by one, whatever those before left in the cache. -/
theorem mapMessages_accounted (hdistinct : g.schema.FieldsDistinct)
    (messages : List (Fin g.schema.size.messages)) :
    List.Forall₂ (Accounted g.schema) messages (g.mapMessages messages cache).1 := by
  induction messages generalizing cache with
  | nil => exact .nil
  | cons m messages ih => exact .cons (mapMessage_accounted hdistinct m) ih

end Generator

end WireMapper.Mapping
