import WireMapper.TypeModel

/-!
Models of values that can be absent. A declaration names a reference type exactly if the model is
not like a primitive type, and a model that was boxed never is, however many wrappers lie around the
scalar.
-/

namespace WireMapper.TypeModel

/-- The names of the Java types whose values cannot be absent. -/
def primitiveTypes : List String :=
  ["int", "long", "float", "double", "boolean"]

def domainClass? : TypeModel → Option String
  | enum _ domainType => some domainType
  | message _ domainType => some domainType
  | unfolded _ _ inner => inner.domainClass?
  | _ => none

/-- The declared type is a reference type: the one that stands as a type argument too. Its name can
be that of a primitive type only where the schema gives a domain class that name. -/
structure DeclaresReference (model : TypeModel) : Prop where
  argument : model.javaType = model.typeArgument
  named : model.javaType ∈ primitiveTypes → model.domainClass? = some model.javaType

theorem isPrimitiveLike_boxed (model : TypeModel) : model.boxed.isPrimitiveLike = false := by
  induction model with
  | scalar s boxed => exact Bool.and_false _
  | unfolded wrapper field inner ih => exact ih
  | enum | message | repeated | map => rfl

theorem boxed_boxed (model : TypeModel) : model.boxed.boxed = model.boxed := by
  induction model with
  | unfolded wrapper field inner ih => exact congrArg (unfolded wrapper field) ih
  | scalar | enum | message | repeated | map => rfl

/-- Types with type arguments are no primitive types. -/
theorem not_mem_primitiveTypes {name : String} (h : '<' ∈ name.toList) : name ∉ primitiveTypes := by
  have hplain : ∀ type ∈ primitiveTypes, '<' ∉ type.toList := by decide
  exact fun hname => hplain name hname h

theorem declaresReference_scalar (s : Scalar) (boxed : Bool) :
    (scalar s boxed).DeclaresReference ↔ (scalar s boxed).isPrimitiveLike = false := by
  have hboth : ((scalar s boxed).javaType = (scalar s boxed).typeArgument ∧
      ((scalar s boxed).javaType ∈ primitiveTypes →
        (scalar s boxed).domainClass? = some (scalar s boxed).javaType)) ↔
      (scalar s boxed).isPrimitiveLike = false := by
    cases s <;> cases boxed <;> decide
  constructor
  · rintro ⟨hargument, hnamed⟩
    exact hboth.mp ⟨hargument, hnamed⟩
  · intro hprimitive
    obtain ⟨hargument, hnamed⟩ := hboth.mpr hprimitive
    exact ⟨hargument, hnamed⟩

/-- Exactly the models that are not like a primitive type declare a reference type. -/
theorem declaresReference_iff (model : TypeModel) :
    model.DeclaresReference ↔ model.isPrimitiveLike = false := by
  induction model with
  | scalar s boxed => exact declaresReference_scalar s boxed
  | enum wireType domainType => exact iff_of_true ⟨rfl, fun _ => rfl⟩ rfl
  | message wireType domainType => exact iff_of_true ⟨rfl, fun _ => rfl⟩ rfl
  | repeated element container _ =>
      have hname : (repeated element container).javaType ∉ primitiveTypes :=
        not_mem_primitiveTypes (by simp [javaType, typeText])
      exact iff_of_true ⟨rfl, fun h => absurd h hname⟩ rfl
  | map key value _ _ =>
      have hname : (map key value).javaType ∉ primitiveTypes :=
        not_mem_primitiveTypes (by simp [javaType, typeText])
      exact iff_of_true ⟨rfl, fun h => absurd h hname⟩ rfl
  | unfolded wrapper field inner ih =>
      -- A wrapper declares what the value inside it is declared as.
      refine Iff.trans ⟨?_, ?_⟩ ih
      · rintro ⟨hargument, hnamed⟩
        exact ⟨hargument, hnamed⟩
      · rintro ⟨hargument, hnamed⟩
        exact ⟨hargument, hnamed⟩

end WireMapper.TypeModel
