import WireMapper.Proofs.Mapping.Outcome
import WireMapper.Proofs.Schema.FieldModel

/-!
Fields that can be absent are never asked for a conversion that their type forbids. Whether a field
can be absent, what it is kept as, and what a conversion refuses are decided in three places; they
agree for every schema, however its wrappers wrap each other, and for every answer about the domain
classes.
-/

namespace WireMapper

/-- Failures of the hierarchy are numbered apart from forbidden conversions. -/
theorem Hierarchy.Error.code_ne_one (e : Hierarchy.Error) : e.code ≠ 1 := by
  cases e <;> simp [code]

namespace Mapping

open Hierarchy (Cache)

namespace Generator

variable (g : Generator) (m : Fin g.schema.size.messages) (f : Field g.schema.size)

/-- A model for a field with a type model: one whose values can be absent if the field can be, the
type model itself if not, and one for which there are both fragments. -/
structure Keeps (model kept : TypeModel) : Prop where
  fieldModel : g.fieldModel f = .ok kept
  nullable : g.schema.isNullable f = true → kept.isPrimitiveLike = false ∧ kept.DeclaresReference
  required : g.schema.isNullable f = false → kept = model
  toWire : ∀ builder value, ∃ copy, (g.conversion m f kept).toWire builder value = .ok copy
  fromWire : ∀ wire, ∃ read, (g.conversion m f kept).fromWire wire = .ok read

/-- The fragments of a mapping neither look for a null nor ask for the field's presence. -/
structure Unguarded (mapping : FieldMapping) : Prop where
  nullable : mapping.domain.nullable = false
  toWire : mapping.toWire =
    (g.conversion m f mapping.domain.model).plainCopy g.builderName mapping.domain.expression
  fromWire : mapping.fromWire =
    (g.conversion m f mapping.domain.model).plainRead g.wireParameter

variable {g m f} {outcome : FieldOutcome} {reply : Reply} {model : TypeModel}

/-- The model that a field is kept with is one that both conversions accept. -/
theorem keeps_keptModel (htype : g.schema.typeModel f = .ok model) :
    g.Keeps m f model (g.keptModel f model) := by
  have hconvertible : (g.conversion m f (g.keptModel f model)).IsConvertible :=
    isConvertible_keptModel model
  refine ⟨fieldModel_of_ok htype, fun hnullable => ?_, fun hrequired => ?_, ?_, ?_⟩
  · have hprimitive : (g.keptModel f model).isPrimitiveLike = false := hconvertible hnullable
    exact ⟨hprimitive, (TypeModel.declaresReference_iff _).mpr hprimitive⟩
  · exact keptModel_of_required hrequired model
  · exact FieldConversion.exists_toWire hconvertible
  · exact FieldConversion.exists_fromWire hconvertible

/-- A used field with a type model is mapped with the model it is kept as, unless its class
hierarchy is at fault. -/
theorem Becomes.keeps (h : g.Becomes m f reply outcome) (hused : f.options.unused = false)
    (htype : g.schema.typeModel f = .ok model) :
    (∃ access mapping, outcome = .mapped mapping ∧
      g.Maps m f (g.keptModel f model) access mapping) ∨
      ∃ detail, outcome = .failed f.declaredName (.resolution detail) := by
  cases h with
  | skipped hunused => cases hused.symm.trans hunused
  | untyped _ hfault => cases htype.symm.trans hfault
  | cyclic => exact Or.inr ⟨_, rfl⟩
  | mapped _ htype' _ hmaps =>
      cases htype.symm.trans htype'
      exact Or.inl ⟨_, _, rfl, hmaps⟩

/-- No outcome is reported as a conversion that the field cannot have. -/
theorem Becomes.code_ne_one (h : g.Becomes m f reply outcome) {message : String} {d : Diagnostic}
    (hd : d ∈ outcome.diagnostic? message) : d.code ≠ 1 := by
  cases h with
  | skipped => cases hd
  | untyped _ hfault =>
      obtain ⟨detail, rfl⟩ := Schema.typeModel_fault hfault
      cases hd
      exact (by decide : (2 : Nat) ≠ 1)
  | cyclic =>
      cases hd
      exact (by decide : (6 : Nat) ≠ 1)
  | @mapped _ access mapping _ _ _ hmaps =>
      cases haccess : mapping.domain.access with
      | resolved r => simp [FieldOutcome.diagnostic?, haccess] at hd
      | assumedDirect e =>
          simp only [FieldOutcome.diagnostic?, haccess, Option.mem_def, Option.some.injEq] at hd
          subst hd
          exact e.code_ne_one

/-- A repeated field is mapped without guards where presence belongs to singular fields. -/
theorem Becomes.unguarded (h : g.Becomes m f reply outcome) (hrepeated : f.isRepeated = true)
    (hsingular : f.oneof?.isSome = true ∨ f.proto3Optional = true → f.isRepeated = false)
    {mapping : FieldMapping} (hmapping : outcome = .mapped mapping) : g.Unguarded m f mapping := by
  have hrequired : g.schema.isNullable f = false :=
    Schema.isNullable_of_repeated hrepeated hsingular
  cases h with
  | skipped => cases hmapping
  | untyped => cases hmapping
  | cyclic => cases hmapping
  | @mapped model access mapped _ _ _ hmaps =>
      cases hmapping
      have hmodel : mapping.domain.model = g.keptModel f model := by rw [hmaps.domain]; rfl
      have hcopy := FieldConversion.toWire_of_required
        (c := g.conversion m f (g.keptModel f model)) hrequired g.builderName
        mapping.domain.expression
      have hread := FieldConversion.fromWire_of_required
        (c := g.conversion m f (g.keptModel f model)) hrequired g.wireParameter
      refine ⟨?_, ?_, ?_⟩
      · rw [hmaps.domain]
        exact hrequired
      · rw [hmodel]
        exact Except.ok.inj (hmaps.toWire.symm.trans hcopy)
      · rw [hmodel]
        exact Except.ok.inj (hmaps.fromWire.symm.trans hread)

end Generator

/-- Nullability is respected. Whatever the schema, the answers about domain classes and the cache,
no diagnostic of a message bears the number of a forbidden conversion. Every used field with a type
model is kept with a model that can be absent if the field can be, and with the type model itself if
not; both fragments can be made, and the field is mapped with them unless its class hierarchy is at
fault. Where presence belongs to singular fields, repeated fields and maps are copied and read
without guards. -/
theorem nullability_respected (g : Generator) (m : Fin g.schema.size.messages) (cache : Cache) :
    let mapping := (g.mapMessage m cache).1
    (∀ d ∈ mapping.diagnostics, d.code ≠ 1) ∧
    List.Forall₂
      (fun outcome f => f.options.unused = false → ∀ model, g.schema.typeModel f = .ok model →
        ∃ kept, g.Keeps m f model kept ∧
          ((∃ access mapped, outcome = .mapped mapped ∧ g.Maps m f kept access mapped) ∨
            ∃ detail, outcome = .failed f.declaredName (.resolution detail)))
      mapping.outcomes (g.schema.message m).fields ∧
    (g.schema.PresenceIsSingular →
      List.Forall₂
        (fun outcome f => f.isRepeated = true → ∀ mapped, outcome = .mapped mapped →
          g.Unguarded m f mapped)
        mapping.outcomes (g.schema.message m).fields) := by
  intro mapping
  have hbecome : List.Forall₂ (fun outcome f => ∃ reply, g.Becomes m f reply outcome)
      mapping.outcomes (g.schema.message m).fields := Generator.outcomes_become _
  refine ⟨?_, ?_, ?_⟩
  · intro d hd
    obtain ⟨outcome, houtcome, hd⟩ := List.mem_filterMap.mp hd
    obtain ⟨f, -, reply, h⟩ := Generator.exists_of_mem_outcomes houtcome
    exact h.code_ne_one hd
  · refine hbecome.imp fun outcome f ⟨reply, h⟩ hused model htype => ?_
    exact ⟨g.keptModel f model, Generator.keeps_keptModel htype, h.keeps hused htype⟩
  · intro hsingular
    obtain ⟨hlength, hpairs⟩ := List.forall₂_iff_zip.mp hbecome
    refine List.forall₂_iff_zip.mpr ⟨hlength, ?_⟩
    intro outcome f hpair hrepeated mapped hmapped
    obtain ⟨reply, h⟩ := hpairs hpair
    exact h.unguarded hrepeated (hsingular m f (List.of_mem_zip hpair).2) hmapped

def countField : Field ⟨1, 2, 0⟩ :=
  { declaredName := "count", fullName := "Tally.count", number := 1, label := .optional
    type := .message 1, dialect := .proto3, proto3Optional := false
    oneof? := some ⟨"kind", false⟩, options := ⟨none, .list, false⟩ }

def marksField : Field ⟨1, 2, 0⟩ :=
  { declaredName := "marks", fullName := "Tally.marks", number := 2, label := .repeated
    type := .scalar .int, dialect := .proto3, proto3Optional := false
    oneof? := none, options := ⟨none, .set, false⟩ }

def tally : Schema :=
  { size := ⟨1, 2, 0⟩
    files := #v[⟨"tally.proto", "", .proto3, "Grpc", none⟩]
    messages := #v[
      ⟨"Tally", "Tally", 0, none, [], [countField, marksField], [⟨"kind", false⟩], false⟩,
      ⟨"Count", "Count", 0, none, [],
        [{ marksField with
            declaredName := "value", fullName := "Count.value", number := 1, label := .optional }],
        [], false⟩]
    enums := #v[] }

def tallyGenerator : Generator :=
  { schema := tally, ask := fun className _ => .error (.notFound className), policy := .never }

theorem nullability_respected_tally :
    tally.PresenceIsSingular ∧
      ∃ count marks kept,
        (tallyGenerator.mapMessage (0 : Fin 2) Cache.empty).1.outcomes =
          [.mapped count, .mapped marks] ∧
        tallyGenerator.Keeps (0 : Fin 2) countField (.unfolded "Count" "value" (.scalar .int false))
          kept ∧
        kept.DeclaresReference ∧ tallyGenerator.Unguarded (0 : Fin 2) marksField marks := by
  have hsingular : tally.PresenceIsSingular := by
    unfold Schema.PresenceIsSingular
    decide +kernel
  have hcountType : tally.typeModel countField =
      .ok (.unfolded "Count" "value" (.scalar .int false)) := by decide +kernel
  have hmarksType : tally.typeModel marksField = .ok (.repeated (.scalar .int true) .set) := by
    decide +kernel
  have hmapped : (tallyGenerator.mapMessage (0 : Fin 2) Cache.empty).1.fields.length = 2 := by
    decide +kernel
  obtain ⟨-, hkeeps, hunguarded⟩ := nullability_respected tallyGenerator (0 : Fin 2) Cache.empty
  replace hunguarded := hunguarded hsingular
  rw [MessageMapping.fields] at hmapped
  generalize (tallyGenerator.mapMessage (0 : Fin 2) Cache.empty).1.outcomes = outcomes
    at hkeeps hunguarded hmapped ⊢
  change List.Forall₂ _ outcomes [countField, marksField] at hkeeps
  change List.Forall₂ _ outcomes [countField, marksField] at hunguarded
  obtain _ | ⟨hcount, _ | ⟨hmarks, _ | _⟩⟩ := hkeeps
  obtain _ | ⟨-, _ | ⟨hplain, -⟩⟩ := hunguarded
  obtain ⟨kept, hkept, ⟨_, count, rfl, -⟩ | ⟨_, rfl⟩⟩ := hcount rfl _ hcountType
  · obtain ⟨_, -, ⟨_, marks, rfl, -⟩ | ⟨_, rfl⟩⟩ := hmarks rfl _ hmarksType
    · have hnullable : tally.isNullable countField = true := by decide +kernel
      exact ⟨hsingular, count, marks, kept, rfl, hkept, (hkept.nullable hnullable).2,
        hplain rfl marks rfl⟩
    · simp at hmapped
  · obtain ⟨_, -, ⟨_, marks, rfl, -⟩ | ⟨_, rfl⟩⟩ := hmarks rfl _ hmarksType
    · simp at hmapped
    · simp at hmapped

end Mapping

end WireMapper
