import WireMapper.Proofs.Schema.Presence

/-!
Which fields have no type model. The recursion that makes a model looks into every wrapper once; it
fails exactly if opening wrappers, without a bound and whatever circles they make, leads to a map
whose entries lack their key or their value.
-/

namespace WireMapper.Schema

variable {s : Schema} {f g : Field s.size} {e : Error} {folded : List (Fin s.size.messages)}
  {type : FieldType s.size} {model : TypeModel}

/-- A type that a field needs a model of: the types of key and value for a map, and else the type of
the field or of its elements. -/
inductive Needs (s : Schema) (f : Field s.size) : FieldType s.size → Prop where
  | type (hmap : s.isMap f = false) : Needs s f f.type
  | entry {entry : Fin s.size.messages} {name : String} {field : Field s.size}
      (hmap : s.isMap f = true) (hentry : f.type = .message entry)
      (hname : name = "key" ∨ name = "value")
      (hfield : (s.message entry).field? name = some field) : Needs s f field.type

def Opens (s : Schema) (f : Field s.size) (w : Fin s.size.messages) (inner : Field s.size) : Prop :=
  s.Needs f (.message w) ∧ (s.message w).isMapEntry = false ∧ (s.message w).fields = [inner]

/-- A map whose entries have no key or no value, with the failure that says so. -/
def LacksEntryField (s : Schema) (f : Field s.size) (e : Error) : Prop :=
  s.isMap f = true ∧ ∃ entry name, f.type = .message entry ∧ (name = "key" ∨ name = "value") ∧
    (s.message entry).field? name = none ∧
    e = .schema ("map entry " ++ (s.message entry).fullName ++ " has no " ++ name ++ " field")

/-- A wrapper has one field, so opening it leads to one place. -/
theorem entryDecides_opens (s : Schema) : EntryDecides s.Opens := by
  rintro f inner f' inner' w ⟨-, -, hinner⟩ ⟨-, -, hinner'⟩
  exact List.head_eq_of_cons_eq (hinner.symm.trans hinner')

section

variable {single : FieldType s.size → Except Error TypeModel}

/-- A field has no model because of its own entries, or because a type that it needs has none. -/
theorem shapeModel_eq_error (h : s.shapeModel single f = .error e) :
    s.LacksEntryField f e ∨ ∃ type, s.Needs f type ∧ single type = .error e := by
  rcases shape_cases s f with hsingular | hlist | ⟨hmap, entry, hentry⟩
  · rw [shapeModel_of_singular hsingular] at h
    exact Or.inr ⟨f.type, .type (isMap_of_singular hsingular), h⟩
  · rw [shapeModel_of_list hlist] at h
    have htype : single f.type = .error e := by
      rcases bind_eq_error.mp h with htype | ⟨element, -, hdone⟩
      · exact htype
      · cases hdone
    exact Or.inr ⟨f.type, .type (isList_eq_true_iff.mp hlist).2, htype⟩
  · rw [shapeModel_of_map hmap hentry] at h
    have hlacks {name : String} (hname : name = "key" ∨ name = "value")
        (h : s.entryField entry name = .error e) : s.LacksEntryField f e :=
      ⟨hmap, entry, name, hentry, hname, entryField_eq_error_iff.mp h⟩
    have hneeds {name : String} {field : Field s.size} (hname : name = "key" ∨ name = "value")
        (h : s.entryField entry name = .ok field) : s.Needs f field.type :=
      .entry hmap hentry hname (entryField_eq_ok_iff.mp h)
    rcases bind_eq_error.mp h with hkey | ⟨keyField, hkey, h⟩
    · exact Or.inl (hlacks (Or.inl rfl) hkey)
    rcases bind_eq_error.mp h with hfails | ⟨key, -, h⟩
    · exact Or.inr ⟨_, hneeds (Or.inl rfl) hkey, hfails⟩
    rcases bind_eq_error.mp h with hvalue | ⟨valueField, hvalue, h⟩
    · exact Or.inl (hlacks (Or.inr rfl) hvalue)
    rcases bind_eq_error.mp h with hfails | ⟨value, -, h⟩
    · exact Or.inr ⟨_, hneeds (Or.inr rfl) hvalue, hfails⟩
    cases h

/-- A field that has a model does not lack anything, and the types that it needs have models. -/
theorem Assembled.complete (h : s.Assembled single f model) :
    (∀ e, ¬ s.LacksEntryField f e) ∧ ∀ type, s.Needs f type → ∃ part, single type = .ok part := by
  have hunmapped (hmap : s.isMap f = false) (hpart : ∃ part, single f.type = .ok part) :
      (∀ e, ¬ s.LacksEntryField f e) ∧
        ∀ type, s.Needs f type → ∃ part, single type = .ok part := by
    refine ⟨fun e hlacks => ?_, fun type hneeds => ?_⟩
    · cases hmap.symm.trans hlacks.1
    · cases hneeds with
      | type => exact hpart
      | entry hmap' => cases hmap.symm.trans hmap'
  cases h with
  | single hsingular hpart =>
      exact hunmapped (isMap_of_singular hsingular) ⟨_, hpart⟩
  | elements hlist helement =>
      exact hunmapped (isList_eq_true_iff.mp hlist).2 ⟨_, helement⟩
  | @entries entry keyField valueField key value hmap hentry hkeyField hkey hvalueField hvalue =>
      refine ⟨?_, ?_⟩
      · rintro e ⟨-, entry', name, hentry', rfl | rfl, hnone, -⟩
        · cases hentry.symm.trans hentry'
          cases hkeyField.symm.trans hnone
        · cases hentry.symm.trans hentry'
          cases hvalueField.symm.trans hnone
      · intro type hneeds
        cases hneeds with
        | type hmap' => cases hmap.symm.trans hmap'
        | entry _ hentry' hname hfield =>
            cases hentry.symm.trans hentry'
            rcases hname with rfl | rfl
            · cases hkeyField.symm.trans hfield
              exact ⟨key, hkey⟩
            · cases hvalueField.symm.trans hfield
              exact ⟨value, hvalue⟩

end

/-- A failure that lies behind a wrapper which may be opened. -/
def FailsBehind (s : Schema) (folded : List (Fin s.size.messages)) (type : FieldType s.size)
    (e : Error) : Prop :=
  ∃ w ∈ folded, ∃ inner, type = .message w ∧ (s.message w).wrapped? = some inner ∧
    ∃ g, WalkInto s.Opens (unvisitedAfter w folded) inner g ∧ s.LacksEntryField g e

/-- A fault that is reached is here, or behind a wrapper that a type needed here may open. -/
theorem exists_lacks_iff : (∃ g, WalkInto s.Opens folded f g ∧ s.LacksEntryField g e) ↔
    s.LacksEntryField f e ∨ ∃ type, s.Needs f type ∧ s.FailsBehind folded type e := by
  rw [exists_walkInto_iff (entryDecides_opens s)]
  refine or_congr_right ?_
  constructor
  · rintro ⟨w, hw, inner, ⟨hneeds, hwrapped⟩, hbehind⟩
    exact ⟨_, hneeds, w, hw, inner, rfl, Message.wrapped?_eq_some_iff.mpr hwrapped, hbehind⟩
  · rintro ⟨_, hneeds, w, hw, inner, rfl, hwrapped, hbehind⟩
    exact ⟨w, hw, inner, ⟨hneeds, Message.wrapped?_eq_some_iff.mp hwrapped⟩, hbehind⟩

/-- A type has no model only for a failure behind the wrapper that it names. -/
theorem failsBehind_of_error (h : s.typeModelFrom folded type = .error e) :
    s.FailsBehind folded type e := by
  fun_induction s.typeModelFrom folded type with
  | case1 => cases h
  | case2 => cases h
  | case3 folded m inner hinner hfolded ih =>
      rcases bind_eq_error.mp h with hshape | ⟨model, -, hdone⟩
      · refine ⟨m, hfolded, inner, rfl, hinner, exists_lacks_iff.mpr ?_⟩
        refine (shapeModel_eq_error hshape).imp_right ?_
        rintro ⟨type, hneeds, hfails⟩
        exact ⟨type, hneeds, ih type hfails⟩
      · cases hdone
  | case4 => cases h
  | case5 => cases h

/-- A type with a failure behind its wrapper has no model. -/
theorem typeModelFrom_ne_ok (h : s.FailsBehind folded type e) (model : TypeModel) :
    s.typeModelFrom folded type ≠ .ok model := by
  fun_induction s.typeModelFrom folded type generalizing model with
  | case1 => obtain ⟨w, -, inner, htype, -⟩ := h; cases htype
  | case2 => obtain ⟨w, -, inner, htype, -⟩ := h; cases htype
  | case3 folded m inner hinner hfolded ih =>
      obtain ⟨w, hw, inner', htype, hwrapped, hbehind⟩ := h
      cases htype
      cases hinner.symm.trans hwrapped
      intro hok
      obtain ⟨part, hshape, -⟩ := bind_eq_ok.mp hok
      obtain ⟨hcomplete, hparts⟩ := (assembled_of_shapeModel hshape).complete
      rcases exists_lacks_iff.mp hbehind with hlacks | ⟨type, hneeds, hfails⟩
      · exact hcomplete e hlacks
      · obtain ⟨part, hpart⟩ := hparts type hneeds
        exact ih type hfails part hpart
  | case4 folded m inner hinner hunfolding =>
      obtain ⟨w, hw, inner', htype, -⟩ := h
      cases htype
      exact absurd hw hunfolding
  | case5 folded m hinner =>
      obtain ⟨w, hw, inner', htype, hwrapped, -⟩ := h
      cases htype
      cases hinner.symm.trans hwrapped

/-- Every wrapper may be opened at the start, so walks go wherever opening leads. -/
theorem walkInto_opens_iff : WalkInto s.Opens (List.finRange s.size.messages) f g ↔
    Relation.ReflTransGen (fun g inner => ∃ w, s.Opens g w inner) f g :=
  walkInto_all_iff List.mem_finRange fun _ _ => Iff.rfl

/-- The failure of a field is that of a map which is reached by opening wrappers. -/
theorem lacks_of_typeModel_error (h : s.typeModel f = .error e) :
    ∃ g, Relation.ReflTransGen (fun g inner => ∃ w, s.Opens g w inner) f g ∧
      s.LacksEntryField g e := by
  simp only [← walkInto_opens_iff]
  refine exists_lacks_iff.mpr ((shapeModel_eq_error h).imp_right ?_)
  rintro ⟨type, hneeds, hfails⟩
  exact ⟨type, hneeds, failsBehind_of_error hfails⟩

/-- Behind a field that has a model no map lacks its key or value. -/
theorem not_lacks_of_typeModel (h : s.typeModel f = .ok model)
    (hreached : Relation.ReflTransGen (fun g inner => ∃ w, s.Opens g w inner) f g) :
    ¬ s.LacksEntryField g e := by
  intro hlacks
  obtain ⟨hcomplete, hparts⟩ := (assembled_of_shapeModel h).complete
  rcases exists_lacks_iff.mp ⟨g, walkInto_opens_iff.mpr hreached, hlacks⟩ with
    hlacks | ⟨type, hneeds, hfails⟩
  · exact hcomplete e hlacks
  · obtain ⟨part, hpart⟩ := hparts type hneeds
    exact typeModelFrom_ne_ok hfails part hpart

end WireMapper.Schema
