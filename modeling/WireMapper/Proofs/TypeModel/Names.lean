import WireMapper.Proofs.Java.Balance
import WireMapper.Proofs.Java.Scope
import WireMapper.TypeModel.Conversion

/-!
The names that a conversion is written with. Parameters of lambdas are numbered by depth, and no two
depths share one. Classes and fields have the names that a schema gives them, which are plain; a
class is not taken for a parameter as long as its name does not start with one.
-/

namespace WireMapper.TypeModel

open Java Text

def parameterDigits (depth : Nat) : List Char :=
  if depth = 0 then [] else Nat.toDigits 10 depth

theorem toList_lambdaParameter (depth : Nat) :
    (lambdaParameter depth).toList = 'i' :: 't' :: parameterDigits depth := by
  rw [lambdaParameter, parameterDigits]
  split
  · rfl
  · rw [Nat.toString_eq_repr, String.toList_append, Nat.toList_repr]
    rfl

theorem ofDigitChars_parameterDigits (depth : Nat) :
    Nat.ofDigitChars 10 (parameterDigits depth) 0 = depth := by
  rw [parameterDigits]
  split
  · rename_i hzero
    exact hzero.symm
  · exact Nat.ofDigitChars_toDigits (by decide) (by decide)

/-- Different depths have different parameters, since decimal digits tell numbers apart. -/
theorem lambdaParameter_injective : Function.Injective lambdaParameter := by
  intro n m h
  have hlists : (lambdaParameter n).toList = (lambdaParameter m).toList := congrArg _ h
  rw [toList_lambdaParameter, toList_lambdaParameter] at hlists
  have hdigits : parameterDigits n = parameterDigits m := by simpa using hlists
  rw [← ofDigitChars_parameterDigits n, hdigits, ofDigitChars_parameterDigits]

theorem isIdentifier_lambdaParameter (depth : Nat) : IsIdentifier (lambdaParameter depth) := by
  refine ⟨'i', _, toList_lambdaParameter depth, by decide, ?_⟩
  have hdigits : ∀ c ∈ parameterDigits depth, isIdentPart c = true := by
    intro c hc
    rw [parameterDigits] at hc
    split at hc
    · cases hc
    · have hdigit : c.isDigit = true := Nat.isDigit_of_mem_toDigits (by decide) (by decide) hc
      have hascii : c.toNat < 0x80 := by
        rw [Char.isDigit, Bool.and_eq_true, decide_eq_true_eq, decide_eq_true_eq] at hdigit
        exact Nat.lt_of_le_of_lt (UInt32.le_iff_toNat_le.mp hdigit.2) (by decide)
      rw [isIdentPart, isNumeric_of_ascii hascii, hdigit]
      simp
  exact List.forall_mem_cons.mpr ⟨by decide, hdigits⟩

def IsParameter (name : String) : Prop :=
  ∃ depth, name = lambdaParameter depth

/-- Parameters begin with a letter that other text may lack. -/
theorem not_mentionedIn_of_not_mem {name text : String} (hname : IsParameter name)
    (htext : 'i' ∉ text.toList) : ¬ MentionedIn name text := by
  obtain ⟨depth, rfl⟩ := hname
  intro h
  have hletter : 'i' ∈ (lambdaParameter depth).toList := by
    rw [toList_lambdaParameter]
    exact List.mem_cons_self
  exact htext (h.isInfix.subset hletter)

/-- The name of a class: identifiers with dots between them, of which the first one is not that of a
parameter. A dotted name that starts with a parameter is a member of the parameter's value. -/
structure IsTypeName (name : String) : Prop where
  qualified : IsQualified name
  apart : ∀ first ∈ (Text.split '.' name).head?, ¬ IsParameter first

/-- The name of a class mentions no parameter. -/
theorem IsTypeName.not_mentionedIn {name type : String} (h : IsTypeName type)
    (hname : IsParameter name) : ¬ MentionedIn name type := by
  intro hmention
  have hdot : '.' ∉ name.toList := by
    obtain ⟨depth, rfl⟩ := hname
    exact (isIdentifier_lambdaParameter depth).noDot
  exact h.apart name (hmention.head?_split hdot h.qualified) hname

theorem isTypeName_of_head {name : String} (hname : IsQualified name)
    (hhead : name.toList.head? ≠ some 'i') : IsTypeName name := by
  refine ⟨hname, ?_⟩
  rintro first hfirst ⟨depth, rfl⟩
  obtain ⟨rest, hsplit⟩ := List.head?_eq_some_iff.mp hfirst
  have hjoin : Text.join '.' (lambdaParameter depth :: rest) = name := by
    rw [← hsplit, Text.join_split]
  apply hhead
  rw [← hjoin, Text.join, String.toList_ofList, List.map_cons, toList_lambdaParameter]
  cases rest <;> rfl

/-- All types and fields in a model have names that a program can have. -/
def WellNamed : TypeModel → Prop
  | scalar .. => True
  | enum wireType domainType => IsTypeName wireType ∧ IsTypeName domainType
  | message wireType domainType => IsTypeName wireType ∧ IsTypeName domainType
  | repeated element _ => element.WellNamed
  | map key value => key.WellNamed ∧ value.WellNamed
  | unfolded wrapperType innerField inner =>
    IsTypeName wrapperType ∧ IsQualified innerField ∧ inner.WellNamed

theorem plain_setter (model : TypeModel) {field : String} (h : IsQualified field) :
    Plain (model.accessors field).setter := by
  have hsuffix : Plain (Naming.accessorSuffix field) := plain_accessorSuffix h.plain
  have hadd : Plain "addAll" := by decide
  have hput : Plain "putAll" := by decide
  have hset : Plain "set" := by decide
  cases model with
  | repeated => exact hadd.append hsuffix
  | map => exact hput.append hsuffix
  | scalar | enum | message | unfolded => exact hset.append hsuffix

theorem plain_getter (model : TypeModel) {field : String} (h : IsQualified field) :
    Plain (model.accessors field).getter := by
  have hsuffix : Plain (Naming.accessorSuffix field) := plain_accessorSuffix h.plain
  have hget : Plain ("get" ++ Naming.accessorSuffix field) := by
    have hword : Plain "get" := by decide
    exact hword.append hsuffix
  have hlist : Plain "List" := by decide
  have hmap : Plain "Map" := by decide
  cases model with
  | repeated => exact hget.append hlist
  | map => exact hget.append hmap
  | scalar | enum | message | unfolded => exact hget

end WireMapper.TypeModel
