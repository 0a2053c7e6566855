import WireMapper.Proofs.Naming
import WireMapper.Schema.Basic
import WireMapper.TypeModel.Conversion

/-!
The accessors of a wire class. A field is mapped under its name without a leading underscore, and
inside of an unfolded wrapper it is known as it is declared. Since an underscore only starts a word,
the two names lead to the same accessors.
-/

namespace WireMapper

open Naming (accessorSuffix)

/-- Accessors are named word by word, and underscores leave no trace in them. -/
theorem Naming.accessors_split_at_underscores :
    (∀ a b, accessorSuffix (a ++ "_" ++ b) = accessorSuffix a ++ accessorSuffix b) ∧
      (∀ field, '_' ∉ (accessorSuffix field).toList) ∧
      ∀ (size : SchemaSize) (f : Field size) (model : TypeModel),
        model.accessors f.name = model.accessors f.declaredName := by
  refine ⟨accessorSuffix_append, ?_, ?_⟩
  · intro field
    rw [accessorSuffix, String.toList_ofList]
    exact underscore_notMem_camelChars true field.toList
  · intro size f model
    unfold TypeModel.accessors
    rw [Field.name, accessorSuffix_dropUnderscore]

example : accessorSuffix "__tax_rate2nd_" = accessorSuffix "tax" ++ accessorSuffix "rate2nd" := by
  decide +kernel

end WireMapper
