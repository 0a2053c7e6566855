import WireMapper.Proofs.TypeModel.Reference
import WireMapper.TypeModel.Conversion

/-!
Boxed models next to the models that they were made from. Boxing changes what a type is declared as
and nothing about what is done with its values, and it gives the declaration the type that stands as
a type argument. Types are taken here as trees of names, so that arguments of arguments can be
spoken of.
-/

namespace WireMapper

inductive JavaType where
  | named (name : String) (arguments : List JavaType)

namespace JavaType

mutual

/-- A type without arguments is written as its name, others with the arguments in angle brackets. -/
def render : JavaType → String
  | named name [] => name
  | named name (argument :: arguments) =>
    name ++ "<" ++ renderArguments (argument :: arguments) ++ ">"

def renderArguments : List JavaType → String
  | [] => ""
  | [argument] => argument.render
  | argument :: arguments => argument.render ++ ", " ++ renderArguments arguments

end

inductive HasArgument : JavaType → JavaType → Prop where
  | direct {name : String} {arguments : List JavaType} {argument : JavaType}
      (h : argument ∈ arguments) : HasArgument (.named name arguments) argument
  | inside {name : String} {arguments : List JavaType} {outer argument : JavaType}
      (houter : outer ∈ arguments) (h : HasArgument outer argument) :
      HasArgument (.named name arguments) argument

theorem exists_of_hasArgument {name : String} {arguments : List JavaType} {argument : JavaType}
    (h : HasArgument (.named name arguments) argument) :
    ∃ outer ∈ arguments, outer = argument ∨ HasArgument outer argument := by
  cases h with
  | direct h => exact ⟨argument, h, Or.inl rfl⟩
  | @inside _ _ outer _ houter h => exact ⟨outer, houter, Or.inr h⟩

end JavaType

namespace TypeModel

variable {model : TypeModel} {asArgument : Bool} {argument : JavaType}

/-- The Java type of a model as a tree. -/
def typeTree (asArgument : Bool) : TypeModel → JavaType
  | repeated element container => .named (containerType container) [element.typeTree true]
  | map key value => .named "Map" [key.typeTree true, value.typeTree true]
  | unfolded _ _ inner => inner.typeTree asArgument
  | model => .named (model.typeText asArgument) []

/-- The names that the schema gives the domain classes of enums and messages in the type. -/
def domainNames : TypeModel → List String
  | scalar .. => []
  | enum _ domainType => [domainType]
  | message _ domainType => [domainType]
  | repeated element _ => element.domainNames
  | map key value => key.domainNames ++ value.domainNames
  | unfolded _ _ inner => inner.domainNames

/-- The tree is written as the declared type, in every position. -/
theorem render_typeTree (model : TypeModel) (asArgument : Bool) :
    (model.typeTree asArgument).render = model.typeText asArgument := by
  induction model generalizing asArgument with
  | scalar | enum | message => simp [typeTree, JavaType.render]
  | repeated element container ih =>
      simp [typeTree, JavaType.render, JavaType.renderArguments, typeText, ih]
  | map key value hkey hvalue =>
      simp [typeTree, JavaType.render, JavaType.renderArguments, typeText, hkey, hvalue,
        String.append_assoc]
  | unfolded wrapperType innerField inner ih => exact ih asArgument

theorem accessors_boxed (model : TypeModel) (field : String) :
    model.boxed.accessors field = model.accessors field := by
  cases model <;> rfl

/-- A boxed model is converted as the model is, at every depth. -/
theorem toWireExpr_boxed (model : TypeModel) (value : Java.Expr) (depth : Nat) :
    model.boxed.toWireExpr value depth = model.toWireExpr value depth := by
  induction model with
  | unfolded wrapperType innerField inner ih =>
      simp only [boxed, toWireExpr, accessors_boxed, ih]
  | scalar | enum | message | repeated | map => rfl

theorem fromWireExpr_boxed (model : TypeModel) (access : Java.Expr) (depth : Nat) :
    model.boxed.fromWireExpr access depth = model.fromWireExpr access depth := by
  induction model generalizing access with
  | unfolded wrapperType innerField inner ih =>
      simp only [boxed, fromWireExpr, accessors_boxed, ih]
  | scalar | enum | message | repeated | map => rfl

theorem toWire_boxed (model : TypeModel) (value : String) :
    model.boxed.toWire value = model.toWire value := by
  rw [toWire, toWireExpr_boxed, toWire]

theorem fromWire_boxed (model : TypeModel) (access : String) :
    model.boxed.fromWire access = model.fromWire access := by
  rw [fromWire, fromWireExpr_boxed, fromWire]

theorem domainNames_boxed (model : TypeModel) : model.boxed.domainNames = model.domainNames := by
  induction model with
  | unfolded wrapperType innerField inner ih => exact ih
  | scalar | enum | message | repeated | map => rfl

/-- A boxed model is declared as what stands as a type argument. -/
theorem javaType_boxed (model : TypeModel) : model.boxed.javaType = model.typeArgument := by
  induction model with
  | unfolded wrapperType innerField inner ih => exact ih
  | scalar | enum | message | repeated | map => rfl

theorem mem_domainNames_of_domainClass? {name : String} (h : model.domainClass? = some name) :
    name ∈ model.domainNames := by
  induction model with
  | enum wireType domainType => exact List.mem_singleton.mpr (Option.some.inj h).symm
  | message wireType domainType => exact List.mem_singleton.mpr (Option.some.inj h).symm
  | unfolded wrapperType innerField inner ih => exact ih h
  | scalar | repeated | map => cases h

theorem javaType_mem_primitiveTypes (h : model.isPrimitiveLike = true) :
    model.javaType ∈ primitiveTypes := by
  induction model with
  | scalar s boxed =>
      revert h
      cases s <;> cases boxed <;> decide
  | unfolded wrapperType innerField inner ih => exact ih h
  | enum | message | repeated | map => cases h

section

variable (hnames : ∀ name ∈ model.domainNames, name ∉ primitiveTypes)

include hnames

/-- Exactly the models that are like a primitive type are declared as one. -/
theorem isPrimitiveLike_iff :
    model.isPrimitiveLike = true ↔ model.javaType ∈ primitiveTypes := by
  refine ⟨javaType_mem_primitiveTypes, fun htype => ?_⟩
  cases hprimitive : model.isPrimitiveLike with
  | true => rfl
  | false =>
      have hclass := ((declaresReference_iff model).mpr hprimitive).named htype
      exact absurd htype (hnames _ (mem_domainNames_of_domainClass? hclass))

/-- A type argument is never a primitive type, unless a domain class bears the name of one. -/
theorem typeArgument_not_mem_primitiveTypes : model.typeArgument ∉ primitiveTypes := by
  intro htype
  rw [← javaType_boxed] at htype
  rw [← domainNames_boxed] at hnames
  have hprimitive : model.boxed.isPrimitiveLike = true := (isPrimitiveLike_iff hnames).mpr htype
  cases hprimitive.symm.trans model.isPrimitiveLike_boxed

/-- A model that stands as an argument is not primitive, nor is what is inside it. -/
theorem argument_of_outer
    (hinside : (model.typeTree true).HasArgument argument → argument.render ∉ primitiveTypes)
    (h : model.typeTree true = argument ∨ (model.typeTree true).HasArgument argument) :
    argument.render ∉ primitiveTypes := by
  rcases h with rfl | h
  · rw [render_typeTree]
    exact typeArgument_not_mem_primitiveTypes hnames
  · exact hinside h

/-- No argument of a type is primitive, however deep it stands. -/
theorem argument_not_mem_primitiveTypes (h : (model.typeTree asArgument).HasArgument argument) :
    argument.render ∉ primitiveTypes := by
  induction model generalizing asArgument with
  | scalar | enum | message =>
      obtain ⟨_, hnone, -⟩ := JavaType.exists_of_hasArgument h
      cases hnone
  | repeated element container ih =>
      obtain ⟨_, helement, h⟩ := JavaType.exists_of_hasArgument h
      obtain rfl := List.mem_singleton.mp helement
      have helementNames : ∀ name ∈ element.domainNames, name ∉ primitiveTypes := hnames
      exact argument_of_outer helementNames (ih helementNames) h
  | map key value hkey hvalue =>
      obtain ⟨hkeyNames, hvalueNames⟩ := List.forall_mem_append.mp hnames
      obtain ⟨_, hmember, h⟩ := JavaType.exists_of_hasArgument h
      rcases List.mem_cons.mp hmember with rfl | hmember
      · exact argument_of_outer hkeyNames (hkey hkeyNames) h
      · obtain rfl := List.mem_singleton.mp hmember
        exact argument_of_outer hvalueNames (hvalue hvalueNames) h
  | unfolded wrapperType innerField inner ih => exact ih hnames h

end

/-- A boxed model is never like a primitive type, boxing it again changes nothing, and its accessors
and conversions are those of the model. What it is declared as is the type argument for the model:
in every collection and in every map, as a key and as a value. Where no domain class has the name of
a primitive type, a model is like one exactly if it is declared as one, and no type argument in a
declaration is one, however deep it stands. -/
theorem boxing_laws (model : TypeModel) :
    model.boxed.isPrimitiveLike = false ∧ model.boxed.boxed = model.boxed ∧
    (∀ value, model.boxed.toWire value = model.toWire value) ∧
    (∀ access, model.boxed.fromWire access = model.fromWire access) ∧
    (∀ field, model.boxed.accessors field = model.accessors field) ∧
    model.boxed.javaType = model.typeArgument ∧
    (∀ container, (repeated model container).javaType =
      containerType container ++ "<" ++ model.boxed.javaType ++ ">") ∧
    (∀ value, (map model value).javaType =
      "Map<" ++ model.boxed.javaType ++ ", " ++ value.boxed.javaType ++ ">") ∧
    (model.typeTree false).render = model.javaType ∧
    ((∀ name ∈ model.domainNames, name ∉ primitiveTypes) →
      (model.isPrimitiveLike = true ↔ model.javaType ∈ primitiveTypes) ∧
      ∀ argument, (model.typeTree false).HasArgument argument →
        argument.render ∉ primitiveTypes) := by
  have hargument (container : RepeatedContainer) : (repeated model container).javaType =
      containerType container ++ "<" ++ model.boxed.javaType ++ ">" := by
    rw [javaType_boxed]
    rfl
  have hentry (value : TypeModel) : (map model value).javaType =
      "Map<" ++ model.boxed.javaType ++ ", " ++ value.boxed.javaType ++ ">" := by
    rw [javaType_boxed, javaType_boxed]
    rfl
  refine ⟨model.isPrimitiveLike_boxed, model.boxed_boxed, model.toWire_boxed, model.fromWire_boxed,
    model.accessors_boxed, model.javaType_boxed, hargument, hentry, model.render_typeTree false,
    fun hnames => ?_⟩
  exact ⟨isPrimitiveLike_iff hnames, fun argument => argument_not_mem_primitiveTypes hnames⟩

def lengths : TypeModel :=
  map (message "WireShape" "Shape")
    (repeated (unfolded "Length" "meters" (scalar .double false)) .set)

theorem boxing_laws_lengths :
    lengths.javaType = "Map<Shape, Set<Double>>" ∧ lengths.isPrimitiveLike = false ∧
      (JavaType.named "Double" []).render ∉ primitiveTypes := by
  have hnames : ∀ name ∈ lengths.domainNames, name ∉ primitiveTypes := by decide
  obtain ⟨-, -, -, -, -, -, -, -, -, hdeclared⟩ := boxing_laws lengths
  obtain ⟨hprimitive, hargument⟩ := hdeclared hnames
  have htype : lengths.javaType = "Map<Shape, Set<Double>>" := by decide
  have hinside : (lengths.typeTree false).HasArgument (.named "Double" []) :=
    .inside (.tail _ (.head _)) (.direct (.head _))
  refine ⟨htype, ?_, hargument _ hinside⟩
  rw [← Bool.not_eq_true, hprimitive, htype]
  decide

end TypeModel

end WireMapper
