import WireMapper.Proofs.Except
import WireMapper.Schema.FieldModel

/-!
When a field has no type model, and when it can be absent. Only the schema can keep a field from
having a model, however many wrappers are unfolded. A repeated field is never absent, since presence
belongs to singular fields and no wrapper is looked into behind a repeated one.
-/

namespace WireMapper

def Error.IsSchemaFault (e : Error) : Prop :=
  ∃ detail, e = .schema detail

namespace Schema

variable {s : Schema} {f : Field s.size} {e : Error}

theorem entryField_eq_ok_iff {entry : Fin s.size.messages} {name : String} {field : Field s.size} :
    s.entryField entry name = .ok field ↔ (s.message entry).field? name = some field := by
  rw [entryField]
  cases (s.message entry).field? name <;> simp

/-- The message names the map entry and the field that it lacks. -/
theorem entryField_eq_error_iff {entry : Fin s.size.messages} {name : String} :
    s.entryField entry name = .error e ↔ (s.message entry).field? name = none ∧
      e = .schema ("map entry " ++ (s.message entry).fullName ++
        " has no " ++ name ++ " field") := by
  rw [entryField]
  cases (s.message entry).field? name with
  | none => simp [eq_comm]
  | some field => simp

theorem entryField_fault {entry : Fin s.size.messages} {name : String}
    (h : s.entryField entry name = .error e) : e.IsSchemaFault :=
  ⟨_, (entryField_eq_error_iff.mp h).2⟩

/-- A field has no model only if the schema is at fault or a type of it has none. -/
theorem shapeModel_fault {single : FieldType s.size → Except Error TypeModel}
    (hsingle : ∀ type e, single type = .error e → e.IsSchemaFault)
    (h : s.shapeModel single f = .error e) : e.IsSchemaFault := by
  rw [shapeModel] at h
  split at h
  · exact hsingle _ _ h
  · split at h
    · refine failure_of_bind (fun _ => entryField_fault) (fun keyField _ h => ?_) h
      refine failure_of_bind (hsingle keyField.type) (fun key _ h => ?_) h
      refine failure_of_bind (fun _ => entryField_fault) (fun valueField _ h => ?_) h
      refine failure_of_bind (hsingle valueField.type) (fun value _ h => ?_) h
      cases h
    · refine failure_of_bind (hsingle _) (fun element _ h => ?_) h
      cases h
  · refine failure_of_bind (hsingle _) (fun element _ h => ?_) h
    cases h

/-- Unfolding wrappers brings in no other failures. -/
theorem typeModelFrom_fault {folded : List (Fin s.size.messages)} {type : FieldType s.size}
    (h : s.typeModelFrom folded type = .error e) : e.IsSchemaFault := by
  fun_induction s.typeModelFrom folded type generalizing e with
  | case1 folded scalar => cases h
  | case2 folded enum => cases h
  | case3 folded m inner hinner hfolded ih =>
      refine failure_of_bind (fun _ => ?_) (fun model _ h => ?_) h
      · exact shapeModel_fault fun type _ => ih type
      · cases h
  | case4 folded m inner hinner hunfolding => cases h
  | case5 folded m hinner => cases h

/-- Whatever a field has no model for is a fault of the schema. -/
theorem typeModel_fault (h : s.typeModel f = .error e) : e.IsSchemaFault :=
  shapeModel_fault (fun _ _ => typeModelFrom_fault) h

theorem isMap_eq_true_iff : s.isMap f = true ↔
    f.isRepeated = true ∧ ∃ entry, f.type = .message entry ∧
    (s.message entry).isMapEntry = true := by
  rw [isMap, target?]
  cases f.type with
  | message entry => simp
  | scalar | enum => simp

theorem isMap_of_singular (h : f.isRepeated = false) : s.isMap f = false := by
  rw [isMap, h, Bool.false_and]

theorem isList_eq_true_iff : s.isList f = true ↔ f.isRepeated = true ∧ s.isMap f = false := by
  simp [isList]

section

variable {single : FieldType s.size → Except Error TypeModel}

theorem shapeModel_of_singular (h : f.isRepeated = false) :
    s.shapeModel single f = single f.type := by
  rw [shapeModel, h]

theorem shapeModel_of_map {entry : Fin s.size.messages} (hmap : s.isMap f = true)
    (hentry : f.type = .message entry) :
    s.shapeModel single f = (do
      let key ← single (← s.entryField entry "key").type
      let value ← single (← s.entryField entry "value").type
      return .map key.boxed value.boxed) := by
  obtain ⟨hrepeated, entry', hentry', hmapEntry⟩ := isMap_eq_true_iff.mp hmap
  cases hentry.symm.trans hentry'
  rw [shapeModel, hrepeated, hentry]
  simp only [hmapEntry, if_true]

theorem shapeModel_of_list (hlist : s.isList f = true) :
    s.shapeModel single f = (do
      return .repeated (← single f.type).boxed f.options.container) := by
  obtain ⟨hrepeated, hmap⟩ := isList_eq_true_iff.mp hlist
  rw [shapeModel, hrepeated]
  cases htype : f.type with
  | scalar | enum => rfl
  | message m =>
      have hentry : (s.message m).isMapEntry = false := by
        rw [← Bool.not_eq_true]
        intro hentry
        cases (isMap_eq_true_iff.mpr ⟨hrepeated, m, htype, hentry⟩).symm.trans hmap
      simp only [hentry]
      rfl

/-- A model that is assembled from the models of the types that a field is made of. -/
inductive Assembled (s : Schema) (single : FieldType s.size → Except Error TypeModel)
    (f : Field s.size) : TypeModel → Prop where
  | single {part : TypeModel} (hsingular : f.isRepeated = false)
      (hpart : single f.type = .ok part) : Assembled s single f part
  | elements {element : TypeModel} (hlist : s.isList f = true)
      (helement : single f.type = .ok element) :
      Assembled s single f (.repeated element.boxed f.options.container)
  | entries {entry : Fin s.size.messages} {keyField valueField : Field s.size}
      {key value : TypeModel} (hmap : s.isMap f = true) (hentry : f.type = .message entry)
      (hkeyField : (s.message entry).field? "key" = some keyField)
      (hkey : single keyField.type = .ok key)
      (hvalueField : (s.message entry).field? "value" = some valueField)
      (hvalue : single valueField.type = .ok value) :
      Assembled s single f (.map key.boxed value.boxed)

/-- A field is singular, a list or a map. -/
theorem shape_cases (s : Schema) (f : Field s.size) : f.isRepeated = false ∨ s.isList f = true ∨
    s.isMap f = true ∧ ∃ entry, f.type = .message entry := by
  cases hrepeated : f.isRepeated with
  | false => exact Or.inl rfl
  | true =>
      cases hmap : s.isMap f with
      | false => exact Or.inr (Or.inl (isList_eq_true_iff.mpr ⟨hrepeated, hmap⟩))
      | true =>
          obtain ⟨-, entry, hentry, -⟩ := isMap_eq_true_iff.mp hmap
          exact Or.inr (Or.inr ⟨rfl, entry, hentry⟩)

theorem assembled_of_shapeModel {model : TypeModel} (h : s.shapeModel single f = .ok model) :
    s.Assembled single f model := by
  rcases shape_cases s f with hsingular | hlist | ⟨hmap, entry, hentry⟩
  · rw [shapeModel_of_singular hsingular] at h
    exact .single hsingular h
  · rw [shapeModel_of_list hlist] at h
    obtain ⟨element, helement, h⟩ := bind_eq_ok.mp h
    cases pure_eq_ok.mp h
    exact .elements hlist helement
  · rw [shapeModel_of_map hmap hentry] at h
    obtain ⟨keyField, hkeyField, h⟩ := bind_eq_ok.mp h
    obtain ⟨key, hkey, h⟩ := bind_eq_ok.mp h
    obtain ⟨valueField, hvalueField, h⟩ := bind_eq_ok.mp h
    obtain ⟨value, hvalue, h⟩ := bind_eq_ok.mp h
    cases pure_eq_ok.mp h
    exact .entries hmap hentry (entryField_eq_ok_iff.mp hkeyField) hkey
      (entryField_eq_ok_iff.mp hvalueField) hvalue

theorem Assembled.of_singular {model : TypeModel} (h : s.Assembled single f model)
    (hsingular : f.isRepeated = false) : single f.type = .ok model := by
  cases h with
  | single _ hpart => exact hpart
  | elements hlist => cases hsingular.symm.trans (isList_eq_true_iff.mp hlist).1
  | entries hmap => cases hsingular.symm.trans (isMap_eq_true_iff.mp hmap).1

theorem Assembled.of_list {model : TypeModel} (h : s.Assembled single f model)
    (hlist : s.isList f = true) :
    ∃ element, single f.type = .ok element ∧
      model = .repeated element.boxed f.options.container := by
  cases h with
  | single hsingular => cases hsingular.symm.trans (isList_eq_true_iff.mp hlist).1
  | elements _ helement => exact ⟨_, helement, rfl⟩
  | entries hmap => cases hmap.symm.trans (isList_eq_true_iff.mp hlist).2

theorem Assembled.of_map {entry : Fin s.size.messages} {model : TypeModel}
    (h : s.Assembled single f model) (hmap : s.isMap f = true) (hentry : f.type = .message entry) :
    ∃ keyField valueField key value, (s.message entry).field? "key" = some keyField ∧
      single keyField.type = .ok key ∧ (s.message entry).field? "value" = some valueField ∧
      single valueField.type = .ok value ∧ model = .map key.boxed value.boxed := by
  cases h with
  | single hsingular => cases hsingular.symm.trans (isMap_eq_true_iff.mp hmap).1
  | elements hlist => cases hmap.symm.trans (isList_eq_true_iff.mp hlist).2
  | entries _ hentry' hkeyField hkey hvalueField hvalue =>
      cases hentry.symm.trans hentry'
      exact ⟨_, _, _, _, hkeyField, hkey, hvalueField, hvalue, rfl⟩

end

/-- Presence belongs to singular fields: members of oneofs and fields that are declared optional in
the newer dialect are not repeated. -/
def PresenceIsSingular (s : Schema) : Prop :=
  ∀ m, ∀ f ∈ (s.message m).fields,
    f.oneof?.isSome = true ∨ f.proto3Optional = true → f.isRepeated = false

theorem unfolding?_of_repeated (h : f.isRepeated = true) : s.unfolding? f = none := by
  rw [unfolding?, if_pos h]

theorem canBeAbsent_eq_false {size : SchemaSize} {f : Field size} (hrepeated : f.isRepeated = true)
    (hsingular : f.oneof?.isSome = true ∨ f.proto3Optional = true → f.isRepeated = false) :
    f.canBeAbsent = false := by
  have hlabel : f.label = .repeated := of_decide_eq_true hrepeated
  have hfree : f.oneof? = none ∧ f.proto3Optional = false := by
    by_contra hpresence
    have hmember : f.oneof?.isSome = true ∨ f.proto3Optional = true := by
      cases honeof : f.oneof? <;> cases hoptional : f.proto3Optional <;> simp_all
    cases hrepeated.symm.trans (hsingular hmember)
  obtain ⟨honeof, hoptional⟩ := hfree
  simp [Field.canBeAbsent, Field.isOptional, Field.inOneof, Field.oneofName?, hlabel, honeof,
    hoptional]

/-- A repeated field cannot be absent where presence belongs to singular fields. -/
theorem isNullable_of_repeated (hrepeated : f.isRepeated = true)
    (hsingular : f.oneof?.isSome = true ∨ f.proto3Optional = true → f.isRepeated = false) :
    s.isNullable f = false := by
  rw [isNullable, isNullableFrom, canBeAbsent_eq_false hrepeated hsingular,
    unfolding?_of_repeated hrepeated]
  rfl

end Schema

end WireMapper
