import WireMapper.Mapping.Message
import WireMapper.Proofs.Except
import WireMapper.Proofs.TypeModel.Reference

/-!
What a field comes to. The cache plays a part only through what it replies about the field's access,
and a reply leaves one outcome: the field is skipped, has no type model, sits in a cyclic hierarchy,
or is mapped. A mapping never fails for want of a fragment, since the model that a nullable field is
kept with can be absent.
-/

namespace WireMapper

namespace FieldConversion

/-- The copy of a field that is always there. -/
def plainCopy (c : FieldConversion) (builder value : String) : Fragment :=
  let call := (c.setterCall builder value).render
  if builder = "" then .expression call else .ofStatement call

def plainRead (c : FieldConversion) (wire : String) : Fragment :=
  .expression (c.model.fromWireExpr (.call (.source wire) c.accessors.getter []) 0).render

/-- A field that can be absent has a type whose values can. -/
def IsConvertible (c : FieldConversion) : Prop :=
  c.nullable = true → c.model.isPrimitiveLike = false

variable {c : FieldConversion}

/-- Such a field passes the check that each conversion starts with. -/
theorem IsConvertible.guard (h : c.IsConvertible) :
    (c.nullable && c.model.isPrimitiveLike) = false := by
  cases hnullable : c.nullable with
  | false => rfl
  | true => exact h hnullable

theorem exists_toWire (h : c.IsConvertible) (builder value : String) :
    ∃ copy, c.toWire builder value = .ok copy := by
  rw [toWire, h.guard]
  cases c.nullable with
  | true => exact ⟨_, rfl⟩
  | false =>
      by_cases hbuilder : builder = ""
      · exact ⟨_, if_pos hbuilder⟩
      · exact ⟨_, if_neg hbuilder⟩

theorem exists_fromWire (h : c.IsConvertible) (wire : String) :
    ∃ read, c.fromWire wire = .ok read := by
  rw [fromWire, h.guard]
  cases c.nullable with
  | true => exact ⟨_, rfl⟩
  | false => exact ⟨_, rfl⟩

/-- A field that is always there is set without a guard. -/
theorem toWire_of_required (h : c.nullable = false) (builder value : String) :
    c.toWire builder value = .ok (c.plainCopy builder value) := by
  rw [toWire, h, plainCopy]
  by_cases hbuilder : builder = ""
  · simp [hbuilder]
  · simp [hbuilder]

/-- A field that is always there is read without asking for its presence. -/
theorem fromWire_of_required (h : c.nullable = false) (wire : String) :
    c.fromWire wire = .ok (c.plainRead wire) := by
  rw [fromWire, h]
  rfl

end FieldConversion

namespace Mapping

open Hierarchy (Cache Resolution)

abbrev Reply := Except Hierarchy.Error Resolution

/-- The access that a reply gives a field. A cycle of classes gives none. -/
inductive Access.Granted : Reply → Access → Prop
  | resolved (r : Resolution) : Granted (.ok r) (.resolved r)
  | assumedDirect {e : Hierarchy.Error} (hrecoverable : e.isRecoverable = true) :
      Granted (.error e) (.assumedDirect e)

/-- Only a cycle of classes is not recovered from. -/
theorem isRecoverable_eq_false_iff {e : Hierarchy.Error} :
    e.isRecoverable = false ↔ ∃ classes, e = .cyclic classes := by
  cases e <;> simp [Hierarchy.Error.isRecoverable]

namespace Generator

section

variable (g : Generator) (m : Fin g.schema.size.messages) (f : Field g.schema.size)

def reply (cache : Cache) : Reply :=
  (cache.query g.ask (g.schema.domainName m) f.generatedName).1

/-- How a field is reached by a reply, or the failure that a cycle of classes is for it. -/
def accessBy : Reply → Except Error Access
  | .ok r => .ok (.resolved r)
  | .error e =>
    if e.isRecoverable then .ok (.assumedDirect e)
    else
      .error (.resolution
        ("field " ++ f.generatedName ++ " of " ++
          (g.schema.message m).fullName ++ ": " ++ e.message))

/-- The model that a field with a type model is kept with. -/
def keptModel (model : TypeModel) : TypeModel :=
  if g.schema.isNullable f && model.isPrimitiveLike then model.boxed else model

/-- The domain side of a field that is kept with a model and reached in a given way. -/
def domainSide (kept : TypeModel) (access : Access) : DomainField :=
  ⟨g.identifier m f kept access, kept, g.schema.isNullable f, access⟩

def conversion (kept : TypeModel) : FieldConversion :=
  ⟨kept, f.name, g.schema.isNullable f, (g.schema.message m).fullName⟩

/-- The mapping of a field that is kept with a model and reached in a given way. -/
structure Maps (kept : TypeModel) (access : Access) (mapping : FieldMapping) : Prop where
  field : mapping.field = f.declaredName
  number : mapping.number = f.number
  kind : mapping.kind = f.type.kindName
  domain : mapping.domain = g.domainSide m f kept access
  toWire : (g.conversion m f kept).toWire g.builderName mapping.domain.expression =
    .ok mapping.toWire
  fromWire : (g.conversion m f kept).fromWire g.wireParameter = .ok mapping.fromWire

/-- What a field comes to by a reply. -/
inductive Becomes (reply : Reply) : FieldOutcome → Prop
  | skipped (hunused : f.options.unused = true) : Becomes reply (.skipped f.declaredName)
  | untyped {e : Error} (hused : f.options.unused = false)
      (htype : g.schema.typeModel f = .error e) : Becomes reply (.failed f.declaredName e)
  | cyclic {model : TypeModel} {e : Hierarchy.Error} (hused : f.options.unused = false)
      (htype : g.schema.typeModel f = .ok model) (hreply : reply = .error e)
      (hcyclic : e.isRecoverable = false) :
      Becomes reply (.failed f.declaredName (.resolution
        ("field " ++ f.generatedName ++ " of " ++
          (g.schema.message m).fullName ++ ": " ++ e.message)))
  | mapped {model : TypeModel} {access : Access} {mapping : FieldMapping}
      (hused : f.options.unused = false) (htype : g.schema.typeModel f = .ok model)
      (hgranted : Access.Granted reply access)
      (hmaps : g.Maps m f (g.keptModel f model) access mapping) : Becomes reply (.mapped mapping)

end

variable {g : Generator} {m : Fin g.schema.size.messages} {f : Field g.schema.size} {cache : Cache}

/-- What a field is kept with was boxed if the field can be absent. -/
theorem isConvertible_keptModel (model : TypeModel) :
    (g.conversion m f (g.keptModel f model)).IsConvertible := by
  intro hnullable
  change (g.keptModel f model).isPrimitiveLike = false
  change g.schema.isNullable f = true at hnullable
  rw [keptModel, hnullable, Bool.true_and]
  cases hprimitive : model.isPrimitiveLike with
  | true => exact model.isPrimitiveLike_boxed
  | false => exact hprimitive

/-- A field that is always there is kept with its type model. -/
theorem keptModel_of_required (h : g.schema.isNullable f = false) (model : TypeModel) :
    g.keptModel f model = model := by
  rw [keptModel, h]
  rfl

theorem fieldModel_of_error {e : Error} (h : g.schema.typeModel f = .error e) :
    g.fieldModel f = .error e := by
  rw [fieldModel, h]
  rfl

theorem fieldModel_of_ok {model : TypeModel} (h : g.schema.typeModel f = .ok model) :
    g.fieldModel f = .ok (g.keptModel f model) := by
  rw [fieldModel, h]
  rfl

variable (g m f) in
/-- Whatever a field is reached by, its mapping is made. -/
theorem exists_mapField (model : TypeModel) (access : Access) :
    ∃ mapping, g.mapField m f (g.domainSide m f (g.keptModel f model) access) = .ok mapping ∧
      g.Maps m f (g.keptModel f model) access mapping := by
  have hconvertible := isConvertible_keptModel (m := m) (f := f) model
  obtain ⟨copy, hcopy⟩ := FieldConversion.exists_toWire hconvertible g.builderName
    (g.domainSide m f (g.keptModel f model) access).expression
  obtain ⟨read, hread⟩ := FieldConversion.exists_fromWire hconvertible g.wireParameter
  refine ⟨⟨_, _, _, _, copy, read⟩, ?_, rfl, rfl, rfl, rfl, hcopy, hread⟩
  exact bind_eq_ok.mpr ⟨copy, hcopy, bind_eq_ok.mpr ⟨read, hread, rfl⟩⟩

/-- The cache is asked once, and what it replies decides. -/
theorem access_eq : g.access m f cache =
    (g.accessBy m f (g.reply m f cache),
      (cache.query g.ask (g.schema.domainName m) f.generatedName).2) := by
  rw [access, reply]
  generalize cache.query g.ask (g.schema.domainName m) f.generatedName = answered
  obtain ⟨reply, after⟩ := answered
  cases reply with
  | ok r => rfl
  | error e => cases hrecoverable : e.isRecoverable <;> simp [accessBy, hrecoverable]

theorem accessBy_of_granted {reply : Reply} {access : Access} (h : Access.Granted reply access) :
    g.accessBy m f reply = .ok access := by
  cases h with
  | resolved r => rfl
  | assumedDirect hrecoverable => exact if_pos hrecoverable

theorem accessBy_of_cyclic {e : Hierarchy.Error} (hcyclic : e.isRecoverable = false) :
    g.accessBy m f (.error e) = .error (.resolution
      ("field " ++ f.generatedName ++ " of " ++ (g.schema.message m).fullName ++ ": " ++
        e.message)) :=
  if_neg (ne_true_of_eq_false hcyclic)

/-- A field that is marked as unused is skipped and nothing is asked. -/
theorem outcome_of_skipped (h : f.options.unused = true) :
    g.outcome m f cache = (.skipped f.declaredName, cache) := by
  rw [outcome, domainField, if_pos h]

/-- A field without a type model fails before anything is asked. -/
theorem outcome_of_untyped {e : Error} (hused : f.options.unused = false)
    (htype : g.schema.typeModel f = .error e) :
    g.outcome m f cache = (.failed f.declaredName e, cache) := by
  rw [outcome, domainField, if_neg (ne_true_of_eq_false hused), fieldModel_of_error htype]

/-- A field with a type model is asked for its access. -/
theorem domainField_of_typed {model : TypeModel} (hused : f.options.unused = false)
    (htype : g.schema.typeModel f = .ok model) :
    g.domainField m f cache =
      ((g.accessBy m f (g.reply m f cache)).map fun access =>
          some (g.domainSide m f (g.keptModel f model) access),
        (cache.query g.ask (g.schema.domainName m) f.generatedName).2) := by
  rw [domainField, if_neg (ne_true_of_eq_false hused), fieldModel_of_ok htype, access_eq]
  cases g.accessBy m f (g.reply m f cache) with
  | error e => rfl
  | ok access => rfl

variable (g m f cache) in
/-- A field comes to what its reply makes of it. -/
theorem outcome_becomes : g.Becomes m f (g.reply m f cache) (g.outcome m f cache).1 := by
  cases hunused : f.options.unused with
  | true =>
      rw [outcome_of_skipped hunused]
      exact .skipped hunused
  | false =>
      cases htype : g.schema.typeModel f with
      | error e =>
          rw [outcome_of_untyped hunused htype]
          exact .untyped hunused htype
      | ok model =>
          have hmapped {access : Access} (hgranted : Access.Granted (g.reply m f cache) access) :
              g.Becomes m f (g.reply m f cache) (g.outcome m f cache).1 := by
            obtain ⟨mapping, hmapping, hmaps⟩ := exists_mapField g m f model access
            rw [outcome, domainField_of_typed hunused htype, accessBy_of_granted hgranted]
            simp only [Except.map, hmapping]
            exact .mapped hunused htype hgranted hmaps
          cases hreply : g.reply m f cache with
          | ok r =>
              rw [hreply] at hmapped
              exact hmapped (.resolved r)
          | error e =>
              cases hrecoverable : e.isRecoverable with
              | true =>
                  rw [hreply] at hmapped
                  exact hmapped (.assumedDirect hrecoverable)
              | false =>
                  rw [outcome, domainField_of_typed hunused htype, hreply,
                    accessBy_of_cyclic hrecoverable]
                  exact .cyclic hunused htype rfl hrecoverable

/-- Whatever the fields before it came to, each field comes to what some reply makes of it. -/
theorem outcomes_become (fields : List (Field g.schema.size)) :
    List.Forall₂ (fun outcome f => ∃ reply, g.Becomes m f reply outcome)
      (g.outcomes m fields cache).1 fields := by
  induction fields generalizing cache with
  | nil => exact .nil
  | cons f fields ih => exact .cons ⟨_, outcome_becomes g m f cache⟩ ih

theorem exists_of_mem_outcomes {fields : List (Field g.schema.size)} {outcome : FieldOutcome}
    (h : outcome ∈ (g.outcomes m fields cache).1) :
    ∃ f ∈ fields, ∃ reply, g.Becomes m f reply outcome := by
  induction fields generalizing cache with
  | nil => cases h
  | cons f fields ih =>
      rcases List.mem_cons.mp h with rfl | hrest
      · exact ⟨f, List.mem_cons_self, _, outcome_becomes g m f cache⟩
      · obtain ⟨f', hf', hbecomes⟩ := ih hrest
        exact ⟨f', List.mem_cons_of_mem _ hf', hbecomes⟩

variable {cache' : Cache}

/-- A cache that replies the same leads to the same outcome. -/
theorem outcome_congr (h : g.reply m f cache = g.reply m f cache') :
    (g.outcome m f cache).1 = (g.outcome m f cache').1 := by
  cases hunused : f.options.unused with
  | true => rw [outcome_of_skipped hunused, outcome_of_skipped hunused]
  | false =>
      cases htype : g.schema.typeModel f with
      | error e => rw [outcome_of_untyped hunused htype, outcome_of_untyped hunused htype]
      | ok model =>
          rw [outcome, outcome, domainField_of_typed hunused htype,
            domainField_of_typed hunused htype, h]
          cases g.accessBy m f (g.reply m f cache') with
          | error e => rfl
          | ok access =>
              obtain ⟨mapping, hmapping, -⟩ := exists_mapField g m f model access
              simp only [Except.map, hmapping]

end Generator

end Mapping

end WireMapper
