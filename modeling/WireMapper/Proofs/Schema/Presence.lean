import WireMapper.Proofs.Schema.FieldModel
import WireMapper.Proofs.Walk

/-!
Which fields can be absent. Presence is looked for along a chain: a field, the field inside the
wrapper that it holds, the field inside the wrapper that this one holds, and so on. The chain can
run in circles, and the search enters each wrapper once; it still finds what is anywhere on the
chain. The type model of a field holds the same fields, up to where its own recursion folds the
chain.
-/

namespace WireMapper

namespace TypeModel

/-- The names of the fields inside the wrappers around the value of a model, outermost first. -/
def innerFields : TypeModel → List String
  | unfolded _ innerField inner => innerField :: inner.innerFields
  | _ => []

theorem innerFields_boxed (model : TypeModel) : model.boxed.innerFields = model.innerFields := by
  induction model with
  | unfolded wrapperType innerField inner ih => exact congrArg (innerField :: ·) ih
  | _ => rfl

end TypeModel

namespace Message

variable {size : SchemaSize}

theorem wrapped?_eq_some_iff {m : Message size} {inner : Field size} :
    m.wrapped? = some inner ↔ m.isMapEntry = false ∧ m.fields = [inner] := by
  rw [wrapped?]
  cases m.isMapEntry with
  | true => simp
  | false =>
      simp only [Bool.false_eq_true, if_false, true_and]
      split
      · rename_i field hfields
        rw [hfields, Option.some.injEq, List.cons.injEq, and_iff_left rfl]
      · rename_i hfields
        exact iff_of_false (by simp) (hfields inner)

end Message

namespace Schema

variable {s : Schema} {f inner : Field s.size} {w : Fin s.size.messages}

/-- Only singular fields are unfolded, and only into wrappers. -/
theorem unfolding?_eq_some_iff : s.unfolding? f = some (w, inner) ↔
    f.isRepeated = false ∧ f.type = .message w ∧ (s.message w).wrapped? = some inner := by
  rw [unfolding?, target?]
  cases f.isRepeated with
  | true => simp
  | false =>
      cases f.type with
      | scalar | enum => simp
      | message m =>
          simp only [Bool.false_eq_true, if_false, Option.bind_eq_bind, Option.bind_some]
          constructor
          · intro h
            obtain ⟨field, hfield, hsame⟩ := Option.bind_eq_some_iff.mp h
            cases hsame
            exact ⟨trivial, rfl, hfield⟩
          · rintro ⟨-, htype, hwrapped⟩
            cases htype
            rw [hwrapped]
            rfl

theorem unfoldedField_eq_ok_iff :
    s.unfoldedField f = .ok inner ↔ ∃ w, s.unfolding? f = some (w, inner) := by
  rw [unfoldedField, unfolded?]
  cases s.unfolding? f with
  | none => simp
  | some found => simp [Prod.ext_iff]

/-- A step of the chain: from a field into the wrapper that it holds, to the field inside. -/
def Unfolds (s : Schema) (f : Field s.size) (w : Fin s.size.messages)
    (inner : Field s.size) : Prop :=
  s.unfolding? f = some (w, inner)

/-- What is inside a wrapper does not depend on how it was come to. -/
theorem entryDecides_unfolds (s : Schema) : EntryDecides s.Unfolds := by
  intro f inner f' inner' w h h'
  obtain ⟨-, -, hinner⟩ := unfolding?_eq_some_iff.mp h
  obtain ⟨-, -, hinner'⟩ := unfolding?_eq_some_iff.mp h'
  exact Option.some.inj (hinner.symm.trans hinner')

section

variable {unentered : List (Fin s.size.messages)}

theorem isNullableFrom_of_unfolds (hinner : s.Unfolds f w inner) (hw : w ∈ unentered) :
    s.isNullableFrom unentered f =
      (f.canBeAbsent || s.isNullableFrom (unvisitedAfter w unentered) inner) := by
  rw [isNullableFrom, show s.unfolding? f = some (w, inner) from hinner]
  simp only [hw, if_true]

/-- At the end of its chain a field can be absent only by its own declaration. -/
theorem isNullableFrom_of_end (hend : ∀ w inner, s.Unfolds f w inner → w ∉ unentered) :
    s.isNullableFrom unentered f = f.canBeAbsent := by
  rw [isNullableFrom]
  cases hunfolding : s.unfolding? f with
  | none => exact Bool.or_false _
  | some found =>
      have hfound : found.1 ∉ unentered := hend found.1 found.2 hunfolding
      simp only [hfound, if_false, Bool.or_false]

/-- The search finds presence wherever a walk through unentered wrappers leads. -/
theorem isNullableFrom_iff : s.isNullableFrom unentered f = true ↔
    ∃ g, WalkInto s.Unfolds unentered f g ∧ g.canBeAbsent = true := by
  induction unentered, f using isNullableFrom.induct s with
  | case1 unentered f ih =>
      rw [exists_walkInto_iff (entryDecides_unfolds s)]
      by_cases hend : ∃ w inner, s.Unfolds f w inner ∧ w ∈ unentered
      · obtain ⟨w, inner, hinner, hw⟩ := hend
        rw [isNullableFrom_of_unfolds hinner hw, Bool.or_eq_true, ih w inner hw]
        refine or_congr_right ⟨fun hbehind => ⟨w, hw, inner, hinner, hbehind⟩, ?_⟩
        rintro ⟨w', _, inner', hinner', hbehind⟩
        cases Option.some.inj (hinner.symm.trans hinner')
        exact hbehind
      · have hnone : ∀ w inner, s.Unfolds f w inner → w ∉ unentered :=
          fun w inner hinner hw => hend ⟨w, inner, hinner, hw⟩
        rw [isNullableFrom_of_end hnone]
        refine ⟨Or.inl, fun h => h.resolve_right ?_⟩
        rintro ⟨w, hw, inner, hinner, _⟩
        exact hnone w inner hinner hw

end

/-- A field can be absent exactly if some field of its chain is declared so. -/
theorem isNullable_iff : s.isNullable f = true ↔
    ∃ g, Relation.ReflTransGen (fun g inner => s.unfoldedField g = .ok inner) f g ∧
      g.canBeAbsent = true := by
  have hchain (g : Field s.size) : WalkInto s.Unfolds (List.finRange s.size.messages) f g ↔
      Relation.ReflTransGen (fun g inner => s.unfoldedField g = .ok inner) f g :=
    walkInto_all_iff List.mem_finRange fun _ _ => unfoldedField_eq_ok_iff
  rw [isNullable, isNullableFrom_iff]
  exact exists_congr fun g => and_congr_left fun _ => hchain g

/-- Presence of the field itself or of what is inside its wrapper. -/
theorem isNullable_step : s.isNullable f = true ↔
    f.canBeAbsent = true ∨ ∃ inner, s.unfoldedField f = .ok inner ∧ s.isNullable inner = true := by
  rw [isNullable_iff]
  constructor
  · rintro ⟨g, hchain, hg⟩
    rcases Relation.ReflTransGen.cases_head hchain with rfl | ⟨inner, hinner, hrest⟩
    · exact Or.inl hg
    · exact Or.inr ⟨inner, hinner, isNullable_iff.mpr ⟨g, hrest, hg⟩⟩
  · rintro (hf | ⟨inner, hinner, hnullable⟩)
    · exact ⟨f, .refl, hf⟩
    · obtain ⟨g, hrest, hg⟩ := isNullable_iff.mp hnullable
      exact ⟨g, .head hinner hrest, hg⟩

/-- The fields inside the wrappers around the value of the model of a field, outermost first. -/
def spine (s : Schema) (f : Field s.size) : TypeModel → List (Field s.size)
  | .unfolded _ _ inner =>
    match s.unfolded? f with
    | some field => field :: s.spine field inner
    | none => []
  | _ => []

theorem spine_of_flat {model : TypeModel} (h : model.innerFields = []) : s.spine f model = [] := by
  cases model with
  | unfolded wrapperType innerField inner => cases h
  | _ => rfl

theorem spine_boxed (model : TypeModel) : s.spine f model.boxed = s.spine f model := by
  induction model generalizing f with
  | unfolded wrapperType innerField inner ih =>
      rw [TypeModel.boxed, spine, spine]
      split
      · rw [ih]
      · rfl
  | _ => rfl

/-- The model of a field has the fields of its chain, as far as a search for presence goes that may
enter the wrappers that the model may unfold. -/
structure HasSpine (s : Schema) (folded : List (Fin s.size.messages)) (f : Field s.size)
    (model : TypeModel) : Prop where
  names : (s.spine f model).map (·.declaredName) = model.innerFields
  nullable : s.isNullableFrom folded f = true ↔
    ∃ g ∈ f :: s.spine f model, g.canBeAbsent = true

section

variable {folded : List (Fin s.size.messages)} {model : TypeModel}

theorem HasSpine.boxed (h : s.HasSpine folded f model) : s.HasSpine folded f model.boxed := by
  refine ⟨?_, ?_⟩
  · rw [spine_boxed, TypeModel.innerFields_boxed]
    exact h.names
  · rw [spine_boxed]
    exact h.nullable

theorem hasSpine_of_flat (hflat : model.innerFields = [])
    (hend : ∀ w inner, s.Unfolds f w inner → w ∉ folded) : s.HasSpine folded f model := by
  refine ⟨?_, ?_⟩
  · rw [spine_of_flat hflat, hflat]
    rfl
  · rw [spine_of_flat hflat, isNullableFrom_of_end hend]
    simp

/-- A wrapper that is unfolded puts its field at the head of the spine. -/
theorem HasSpine.unfolded {wrapperType : String} (hinner : s.Unfolds f w inner) (hw : w ∈ folded)
    (h : s.HasSpine (unvisitedAfter w folded) inner model) :
    s.HasSpine folded f (.unfolded wrapperType inner.declaredName model) := by
  have hspine : s.spine f (.unfolded wrapperType inner.declaredName model) =
      inner :: s.spine inner model := by
    rw [spine, unfolded?, show s.unfolding? f = some (w, inner) from hinner]
    rfl
  refine ⟨?_, ?_⟩
  · rw [hspine, List.map_cons, h.names]
    rfl
  · rw [hspine, isNullableFrom_of_unfolds hinner hw, Bool.or_eq_true, h.nullable]
    simp only [List.mem_cons, exists_eq_or_imp]

/-- A list or a map is not looked into. -/
theorem hasSpine_of_repeated {single : FieldType s.size → Except Error TypeModel}
    (hrepeated : f.isRepeated = true) (h : s.shapeModel single f = .ok model) :
    s.HasSpine folded f model := by
  have hend : ∀ w inner, s.Unfolds f w inner → w ∉ folded := by
    intro w inner hinner
    cases hrepeated.symm.trans (unfolding?_eq_some_iff.mp hinner).1
  cases assembled_of_shapeModel h with
  | single hsingular => cases hrepeated.symm.trans hsingular
  | elements => exact hasSpine_of_flat rfl hend
  | entries => exact hasSpine_of_flat rfl hend

/-- A type that is not unfolded ends the chain. -/
theorem hasSpine_of_end {type : FieldType s.size} (hflat : model.innerFields = [])
    (htype : f.type = type)
    (hend : ∀ m, type = .message m → (s.message m).wrapped? = none ∨ m ∉ folded) :
    s.HasSpine folded f model := by
  refine hasSpine_of_flat hflat fun w inner hinner => ?_
  obtain ⟨-, hmessage, hwrapped⟩ := unfolding?_eq_some_iff.mp hinner
  refine (hend w (htype.symm.trans hmessage)).resolve_left fun hnone => ?_
  cases hnone.symm.trans hwrapped

/-- The two recursions fold the chain at the same wrapper. -/
theorem hasSpine_of_single {type : FieldType s.size} (htype : f.type = type)
    (hsingular : f.isRepeated = false) (h : s.typeModelFrom folded type = .ok model) :
    s.HasSpine folded f model := by
  fun_induction s.typeModelFrom folded type generalizing f model with
  | case1 folded scalar =>
      cases h
      exact hasSpine_of_end rfl htype (by simp)
  | case2 folded enum =>
      cases h
      exact hasSpine_of_end rfl htype (by simp)
  | case3 folded m inner hinner hfolded ih =>
      obtain ⟨model, hmodel, h⟩ := bind_eq_ok.mp h
      cases pure_eq_ok.mp h
      have hunfolds : s.Unfolds f m inner :=
        unfolding?_eq_some_iff.mpr ⟨hsingular, htype, hinner⟩
      have hspine : s.HasSpine (unvisitedAfter m folded) inner model := by
        -- Behind a repeated field the model goes on, but the chain does not.
        cases hrepeated : inner.isRepeated with
        | true => exact hasSpine_of_repeated hrepeated hmodel
        | false =>
            rw [shapeModel_of_singular hrepeated] at hmodel
            exact ih inner.type rfl hrepeated hmodel
      apply HasSpine.unfolded hunfolds hfolded
      split
      · exact hspine.boxed
      · exact hspine
  | case4 folded m inner hinner hunfolding =>
      cases h
      exact hasSpine_of_end rfl htype fun m' hm' => by cases hm'; exact Or.inr hunfolding
  | case5 folded m hinner =>
      cases h
      exact hasSpine_of_end rfl htype fun m' hm' => by cases hm'; exact Or.inl hinner

/-- The type model of a field shows the chain that presence is looked for along. -/
theorem hasSpine_of_typeModel (h : s.typeModel f = .ok model) :
    s.HasSpine (List.finRange s.size.messages) f model := by
  cases hrepeated : f.isRepeated with
  | true => exact hasSpine_of_repeated hrepeated h
  | false =>
      rw [typeModel, shapeModel_of_singular hrepeated] at h
      exact hasSpine_of_single rfl hrepeated h

end

/-- Nullability is reachability along the wrappers. Whatever the schema, a field can be absent
exactly if it, or a field that is reached from it by unfolding again and again, is declared optional
or is a member of a oneof. So it can be absent exactly if it is declared so itself, or holds a
wrapper whose field can be absent. If the field has a type model, it and the fields inside the
wrappers around the value of the model suffice to tell. -/
theorem nullable_along_wrappers (s : Schema) (f : Field s.size) :
    (s.isNullable f = true ↔
      ∃ g, Relation.ReflTransGen (fun g inner => s.unfoldedField g = .ok inner) f g ∧
        (g.isOptional = true ∨ g.inOneof = true)) ∧
    (s.isNullable f = true ↔ f.isOptional = true ∨ f.inOneof = true ∨
      s.isUnfolded f = true ∧
        ∃ inner, s.unfoldedField f = .ok inner ∧ s.isNullable inner = true) ∧
    ∀ model, s.typeModel f = .ok model →
      (s.spine f model).map (·.declaredName) = model.innerFields ∧
      (s.isNullable f = true ↔
        ∃ g ∈ f :: s.spine f model, g.isOptional = true ∨ g.inOneof = true) := by
  have hdeclared (g : Field s.size) :
      g.canBeAbsent = true ↔ g.isOptional = true ∨ g.inOneof = true := Bool.or_eq_true_iff
  refine ⟨?_, ?_, ?_⟩
  · simp only [isNullable_iff, hdeclared]
  · rw [isNullable_step, hdeclared, or_assoc]
    refine or_congr_right (or_congr_right ?_)
    refine ⟨fun hinner => ⟨?_, hinner⟩, And.right⟩
    obtain ⟨inner, hinner, -⟩ := hinner
    obtain ⟨w, hw⟩ := unfoldedField_eq_ok_iff.mp hinner
    exact Option.isSome_of_mem hw
  · intro model hmodel
    have hspine := hasSpine_of_typeModel hmodel
    refine ⟨hspine.names, ?_⟩
    simp only [← hdeclared]
    exact hspine.nullable

def loopField : Field ⟨1, 2, 0⟩ :=
  { declaredName := "loop", fullName := "Turn.loop", number := 1, label := .optional
    type := .message ⟨0, Nat.zero_lt_two⟩, dialect := .proto3, proto3Optional := true
    oneof? := some ⟨"_loop", true⟩, options := ⟨none, .list, false⟩ }

def turnField : Field ⟨1, 2, 0⟩ :=
  { loopField with
      declaredName := "turn", fullName := "Loop.turn"
      type := .message ⟨1, Nat.one_lt_two⟩
      proto3Optional := false, oneof? := none }

def circle : Schema :=
  { size := ⟨1, 2, 0⟩
    files := #v[⟨"circle.proto", "", .proto3, "", none⟩]
    messages := #v[
      ⟨"Loop", "Loop", ⟨0, Nat.zero_lt_one⟩, none, [], [turnField], [], false⟩,
      ⟨"Turn", "Turn", ⟨0, Nat.zero_lt_one⟩, none, [], [loopField], [⟨"_loop", true⟩], false⟩]
    enums := .emptyWithCapacity 0 }

theorem nullable_along_wrappers_circle :
    circle.typeModel turnField =
        .ok (.unfolded "Turn" "loop" (.unfolded "Loop" "turn" (.message "Turn" "Turn"))) ∧
      turnField.canBeAbsent = false ∧ circle.isNullable turnField = true := by
  have hmodel : circle.typeModel turnField =
      .ok (.unfolded "Turn" "loop" (.unfolded "Loop" "turn" (.message "Turn" "Turn"))) := by
    decide +kernel
  obtain ⟨-, -, hspine⟩ := nullable_along_wrappers circle turnField
  obtain ⟨-, hnullable⟩ := hspine _ hmodel
  have hfields : circle.spine turnField
      (.unfolded "Turn" "loop" (.unfolded "Loop" "turn" (.message "Turn" "Turn"))) =
        [loopField, turnField] := by rfl
  rw [hfields] at hnullable
  exact ⟨hmodel, by decide, hnullable.mpr ⟨loopField, .tail _ (.head _), by decide⟩⟩

end Schema

end WireMapper
