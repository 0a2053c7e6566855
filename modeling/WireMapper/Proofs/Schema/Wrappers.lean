import Mathlib.Data.Fintype.Card
import WireMapper.Proofs.Schema.EntryFaults
import WireMapper.Proofs.TypeModel.Reference

/-!
What the type model of a field looks like, for every schema and however its wrappers wrap each
other. A place of a model is known by what it stands for, a field or a type, and by the wrappers
that are opened on the way to it. No wrapper is opened twice on a way, and what stands at a place is
decided by the schema and that way alone.
-/

namespace WireMapper

/-- A model that is made of others has them as its parts, and theirs. -/
inductive TypeModel.Part (model : TypeModel) : TypeModel → Prop where
  | root : Part model model
  | element {element : TypeModel} {container : RepeatedContainer}
      (h : Part model (.repeated element container)) : Part model element
  | key {key value : TypeModel} (h : Part model (.map key value)) : Part model key
  | value {key value : TypeModel} (h : Part model (.map key value)) : Part model value
  | inner {wrapperType innerField : String} {inner : TypeModel}
      (h : Part model (.unfolded wrapperType innerField inner)) : Part model inner

namespace Schema

variable {s : Schema} {f g : Field s.size} {folded : List (Fin s.size.messages)}
  {type : FieldType s.size} {model part whole : TypeModel}

/-- What a place of a model stands for: a field, or a type that a field needs. -/
inductive Site (size : SchemaSize) where
  | field (f : Field size)
  | type (type : FieldType size)

/-- The places of the model of a field. Each is found inside the wrappers of a path, innermost
first. -/
inductive Occurs (s : Schema) (f : Field s.size) (model : TypeModel) :
    List (Fin s.size.messages) → Site s.size → TypeModel → Prop where
  | root : Occurs s f model [] (.field f) model
  | single {path : List (Fin s.size.messages)} {g : Field s.size} {part : TypeModel}
      (h : Occurs s f model path (.field g) part) (hsingular : g.isRepeated = false) :
      Occurs s f model path (.type g.type) part
  | element {path : List (Fin s.size.messages)} {g : Field s.size} {part : TypeModel}
      {container : RepeatedContainer}
      (h : Occurs s f model path (.field g) (.repeated part container))
      (hlist : s.isList g = true) : Occurs s f model path (.type g.type) part
  | key {path : List (Fin s.size.messages)} {g field : Field s.size}
      {entry : Fin s.size.messages} {key value : TypeModel}
      (h : Occurs s f model path (.field g) (.map key value)) (hmap : s.isMap g = true)
      (hentry : g.type = .message entry)
      (hfield : (s.message entry).field? "key" = some field) :
      Occurs s f model path (.type field.type) key
  | value {path : List (Fin s.size.messages)} {g field : Field s.size}
      {entry : Fin s.size.messages} {key value : TypeModel}
      (h : Occurs s f model path (.field g) (.map key value)) (hmap : s.isMap g = true)
      (hentry : g.type = .message entry)
      (hfield : (s.message entry).field? "value" = some field) :
      Occurs s f model path (.type field.type) value
  | inner {path : List (Fin s.size.messages)} {w : Fin s.size.messages} {g : Field s.size}
      {wrapperType innerField : String} {part : TypeModel}
      (h : Occurs s f model path (.type (.message w)) (.unfolded wrapperType innerField part))
      (hfields : (s.message w).fields = [g]) : Occurs s f model (w :: path) (.field g) part

def offPath (path : List (Fin s.size.messages)) : List (Fin s.size.messages) :=
  path.foldr unvisitedAfter (List.finRange s.size.messages)

theorem mem_offPath {path : List (Fin s.size.messages)} {m : Fin s.size.messages} :
    m ∈ offPath path ↔ m ∉ path := by
  induction path with
  | nil => simp [offPath]
  | cons w path ih =>
      rw [offPath, List.foldr_cons, mem_unvisitedAfter, List.mem_cons, not_or, and_comm]
      exact and_congr_right fun _ => ih

/-- The model that the recursion makes at a place. -/
def Yields (s : Schema) (folded : List (Fin s.size.messages)) : Site s.size → TypeModel → Prop
  | .field g, whole => s.shapeModel (s.typeModelFrom folded) g = .ok whole
  | .type type, whole => s.typeModelFrom folded type = .ok whole

/-- What stands in a model is what was made for its place, or that with the value it ends in held as
a reference. -/
def KeptAs (part whole : TypeModel) : Prop :=
  part = whole ∨ part = whole.boxed

theorem keptAs_repeated {element element' : TypeModel} {container container' : RepeatedContainer}
    (h : KeptAs (.repeated element container) (.repeated element' container')) :
    element = element' := by
  rcases h with h | h
  · cases h
    rfl
  · cases h
    rfl

theorem keptAs_map {key value key' value' : TypeModel}
    (h : KeptAs (.map key value) (.map key' value')) : key = key' ∧ value = value' := by
  rcases h with h | h
  · cases h
    exact ⟨rfl, rfl⟩
  · cases h
    exact ⟨rfl, rfl⟩

/-- Boxing reaches through a wrapper to the value inside. -/
theorem keptAs_unfolded {wrapperType wrapperType' innerField innerField' : String}
    {inner inner' : TypeModel}
    (h : KeptAs (.unfolded wrapperType innerField inner)
      (.unfolded wrapperType' innerField' inner')) : KeptAs inner inner' := by
  rcases h with h | h
  · cases h
    exact Or.inl rfl
  · cases h
    exact Or.inr rfl

theorem KeptAs.of_held {held : Bool}
    (h : KeptAs part (if held then whole.boxed else whole)) : KeptAs part whole := by
  cases held with
  | false => exact h
  | true =>
      rcases h with rfl | rfl
      · exact Or.inr rfl
      · exact Or.inr whole.boxed_boxed

/-- A message is opened if it is a wrapper that may be, and stands for itself if not. -/
inductive MessageModel (s : Schema) (folded : List (Fin s.size.messages))
    (m : Fin s.size.messages) : TypeModel → Prop where
  | opened {inner : Field s.size} {part : TypeModel}
      (hwrapped : (s.message m).wrapped? = some inner) (hfolded : m ∈ folded)
      (hinner : s.Yields (unvisitedAfter m folded) (.field inner) part) :
      MessageModel s folded m (.unfolded (s.message m).javaName inner.declaredName
        (if s.isNullable inner then part.boxed else part))
  | closed (hclosed : (s.message m).wrapped? = none ∨ m ∉ folded) :
      MessageModel s folded m (.message (s.message m).javaName (s.domainName m))

/-- The recursion opens a wrapper that it has not opened and folds every other message. -/
theorem messageModel_of_typeModelFrom {m : Fin s.size.messages}
    (h : s.typeModelFrom folded (.message m) = .ok model) : s.MessageModel folded m model := by
  rw [typeModelFrom] at h
  cases hwrapped : (s.message m).wrapped? with
  | none =>
      simp only [hwrapped] at h
      cases h
      exact .closed (Or.inl hwrapped)
  | some inner =>
      by_cases hfolded : m ∈ folded
      · simp only [hwrapped, hfolded, if_true] at h
        obtain ⟨part, hpart, h⟩ := bind_eq_ok.mp h
        cases pure_eq_ok.mp h
        exact .opened hwrapped hfolded hpart
      · simp only [hwrapped, hfolded, if_false] at h
        cases h
        exact .closed (Or.inr hfolded)

/-- The recursion makes every part of a model, at a path on which no wrapper was opened twice. -/
theorem occurs_yields (hmodel : s.typeModel f = .ok model)
    {path : List (Fin s.size.messages)} {site : Site s.size}
    (h : s.Occurs f model path site part) :
    path.Nodup ∧ ∃ whole, KeptAs part whole ∧ s.Yields (offPath path) site whole := by
  induction h with
  | root => exact ⟨List.nodup_nil, model, Or.inl rfl, hmodel⟩
  | single _ hsingular ih =>
      obtain ⟨hnodup, whole, hpart, hwhole⟩ := ih
      exact ⟨hnodup, whole, hpart, (assembled_of_shapeModel hwhole).of_singular hsingular⟩
  | element _ hlist ih =>
      obtain ⟨hnodup, whole, hpart, hwhole⟩ := ih
      obtain ⟨element, helement, rfl⟩ := (assembled_of_shapeModel hwhole).of_list hlist
      exact ⟨hnodup, element, Or.inr (keptAs_repeated hpart), helement⟩
  | key _ hmap hentry hfield ih =>
      obtain ⟨hnodup, whole, hpart, hwhole⟩ := ih
      obtain ⟨keyField, valueField, key, value, hkeyField, hkey, -, -, rfl⟩ :=
        (assembled_of_shapeModel hwhole).of_map hmap hentry
      cases hfield.symm.trans hkeyField
      exact ⟨hnodup, key, Or.inr (keptAs_map hpart).1, hkey⟩
  | value _ hmap hentry hfield ih =>
      obtain ⟨hnodup, whole, hpart, hwhole⟩ := ih
      obtain ⟨keyField, valueField, key, value, -, -, hvalueField, hvalue, rfl⟩ :=
        (assembled_of_shapeModel hwhole).of_map hmap hentry
      cases hfield.symm.trans hvalueField
      exact ⟨hnodup, value, Or.inr (keptAs_map hpart).2, hvalue⟩
  | @inner path w g wrapperType innerField part _ hfields ih =>
      -- The wrapper was still to be opened, and the recursion goes on without it.
      obtain ⟨hnodup, whole, hpart, hwhole⟩ := ih
      cases messageModel_of_typeModelFrom hwhole with
      | @opened inner inside hwrapped hfolded hinner =>
          obtain ⟨-, hfields'⟩ := Message.wrapped?_eq_some_iff.mp hwrapped
          obtain rfl := List.head_eq_of_cons_eq (hfields.symm.trans hfields')
          refine ⟨List.nodup_cons.mpr ⟨mem_offPath.mp hfolded, hnodup⟩, inside, ?_, hinner⟩
          exact (keptAs_unfolded hpart).of_held
      | closed => rcases hpart with hpart | hpart <;> cases hpart

def IsWrapper (s : Schema) (m : Fin s.size.messages) : Prop :=
  (s.message m).isMapEntry = false ∧ (s.message m).fields.length = 1

/-- A part of a model has the form of what it stands for. Scalars may be held as references; a
message is opened exactly if it is a wrapper that was not opened on the way to it. -/
def Represents (s : Schema) (path : List (Fin s.size.messages)) : Site s.size → TypeModel → Prop
  | .field g, part =>
    (s.isList g = true → ∃ element, part = .repeated element g.options.container) ∧
    (s.isMap g = true → ∃ entry keyField valueField key value, g.type = .message entry ∧
      (s.message entry).field? "key" = some keyField ∧
      (s.message entry).field? "value" = some valueField ∧ part = .map key value)
  | .type (.scalar x), part => ∃ boxed, part = .scalar x boxed
  | .type (.enum e), part => part = .enum (s.enum e).javaName (s.enumDomainName e)
  | .type (.message m), part =>
    (part = .message (s.message m).javaName (s.domainName m) ↔ ¬ s.IsWrapper m ∨ m ∈ path) ∧
    ((∃ field inner, (s.message m).fields = [field] ∧
      part = .unfolded (s.message m).javaName field.declaredName inner) ↔
        s.IsWrapper m ∧ m ∉ path)

theorem isWrapper_iff {m : Fin s.size.messages} :
    s.IsWrapper m ↔ ∃ inner, (s.message m).wrapped? = some inner := by
  simp only [IsWrapper, Message.wrapped?_eq_some_iff, List.length_eq_one_iff, exists_and_left]

/-- A message stands folded or opened as the path to it demands. -/
theorem represents_message {path : List (Fin s.size.messages)} {m : Fin s.size.messages}
    (hpart : KeptAs part whole) (h : s.MessageModel (offPath path) m whole) :
    s.Represents path (.type (.message m)) part := by
  cases h with
  | @opened inner inside hwrapped hfolded hinner =>
      have hwrapper : s.IsWrapper m := isWrapper_iff.mpr ⟨inner, hwrapped⟩
      have hnew : m ∉ path := mem_offPath.mp hfolded
      have hopened : ∃ field inner, (s.message m).fields = [field] ∧
          part = .unfolded (s.message m).javaName field.declaredName inner := by
        have hfields := (Message.wrapped?_eq_some_iff.mp hwrapped).2
        rcases hpart with rfl | rfl
        · exact ⟨inner, _, hfields, rfl⟩
        · exact ⟨inner, _, hfields, rfl⟩
      refine ⟨iff_of_false ?_ ?_, iff_of_true hopened ⟨hwrapper, hnew⟩⟩
      · obtain ⟨_, _, -, rfl⟩ := hopened
        simp
      · exact fun h => h.elim (fun h => h hwrapper) hnew
  | closed hclosed =>
      have hclosed' : ¬ s.IsWrapper m ∨ m ∈ path := by
        refine hclosed.imp (fun hnone hwrapper => ?_) fun hfolded => ?_
        · obtain ⟨inner, hinner⟩ := isWrapper_iff.mp hwrapper
          cases hnone.symm.trans hinner
        · exact not_not.mp fun hnew => hfolded (mem_offPath.mpr hnew)
      obtain rfl : part = .message (s.message m).javaName (s.domainName m) := hpart.elim id id
      refine ⟨iff_of_true rfl hclosed', iff_of_false ?_ ?_⟩
      · rintro ⟨_, _, -, hunfolded⟩
        cases hunfolded
      · rintro ⟨hwrapper, hnew⟩
        exact hclosed'.elim (fun h => h hwrapper) hnew

/-- A field is a map, a list or what its type is. -/
theorem represents_field {path : List (Fin s.size.messages)} (hpart : KeptAs part whole)
    (h : s.Yields (offPath path) (.field g) whole) : s.Represents path (.field g) part := by
  have hassembled := assembled_of_shapeModel h
  refine ⟨fun hlist => ?_, fun hmap => ?_⟩
  · obtain ⟨element, -, rfl⟩ := hassembled.of_list hlist
    exact ⟨element.boxed, hpart.elim id id⟩
  · obtain ⟨-, entry, hentry, -⟩ := isMap_eq_true_iff.mp hmap
    obtain ⟨keyField, valueField, key, value, hkeyField, -, hvalueField, -, rfl⟩ :=
      hassembled.of_map hmap hentry
    exact ⟨entry, keyField, valueField, key.boxed, value.boxed, hentry, hkeyField, hvalueField,
      hpart.elim id id⟩

theorem represents_of_yields {path : List (Fin s.size.messages)} {site : Site s.size}
    (hpart : KeptAs part whole) (h : s.Yields (offPath path) site whole) :
    s.Represents path site part := by
  cases site with
  | field g => exact represents_field hpart h
  | type type =>
      cases type with
      | message m => exact represents_message hpart (messageModel_of_typeModelFrom h)
      | scalar x =>
          rw [Yields, typeModelFrom] at h
          cases h
          rcases hpart with rfl | rfl
          · exact ⟨false, rfl⟩
          · exact ⟨true, rfl⟩
      | enum e =>
          rw [Yields, typeModelFrom] at h
          cases h
          exact hpart.elim id id

/-- Every part of a type model has the form of what stands at its place. -/
theorem occurs_represents (hmodel : s.typeModel f = .ok model)
    {path : List (Fin s.size.messages)} {site : Site s.size}
    (h : s.Occurs f model path site part) : s.Represents path site part := by
  obtain ⟨-, whole, hpart, hwhole⟩ := occurs_yields hmodel h
  exact represents_of_yields hpart hwhole

/-- A type stands for a scalar, an enum or a message, and a message that is opened has a single
field. -/
theorem Represents.cases_type {path : List (Fin s.size.messages)}
    (h : s.Represents path (.type type) part) :
    (∃ x boxed, part = .scalar x boxed) ∨
    (∃ wireType domainType, part = .enum wireType domainType) ∨
      (∃ wireType domainType, part = .message wireType domainType) ∨
      ∃ w g wrapperType innerField inner, type = .message w ∧ (s.message w).fields = [g] ∧
        part = .unfolded wrapperType innerField inner := by
  cases type with
  | scalar x =>
      obtain ⟨boxed, hpart⟩ := h
      exact Or.inl ⟨x, boxed, hpart⟩
  | enum e => exact Or.inr (Or.inl ⟨_, _, h⟩)
  | message m =>
      obtain ⟨hclosed, hopened⟩ := h
      by_cases hopen : s.IsWrapper m ∧ m ∉ path
      · obtain ⟨g, inner, hfields, hpart⟩ := hopened.mpr hopen
        exact Or.inr (Or.inr (Or.inr ⟨m, g, _, _, inner, rfl, hfields, hpart⟩))
      · rw [not_and_or, not_not] at hopen
        exact Or.inr (Or.inr (Or.inl ⟨_, _, hclosed.mpr hopen⟩))

/-- A collection stands for a list or a map. -/
theorem exists_field_of_occurs (hmodel : s.typeModel f = .ok model)
    {path : List (Fin s.size.messages)} {site : Site s.size} (h : s.Occurs f model path site part)
    (hcollection : ∀ type, ¬ s.Represents path (.type type) part) :
    ∃ g, s.Occurs f model path (.field g) part ∧ (s.isList g = true ∨ s.isMap g = true) := by
  cases site with
  | type type => exact absurd (occurs_represents hmodel h) (hcollection type)
  | field g =>
      rcases shape_cases s g with hsingular | hlist | ⟨hmap, -⟩
      · exact absurd (occurs_represents hmodel (h.single hsingular)) (hcollection g.type)
      · exact ⟨g, h, Or.inl hlist⟩
      · exact ⟨g, h, Or.inr hmap⟩

/-- A model that is unfolded stands for a message with a single field. -/
theorem exists_message_of_occurs (hmodel : s.typeModel f = .ok model)
    {path : List (Fin s.size.messages)} {site : Site s.size}
    {wrapperType innerField : String} {inner : TypeModel}
    (h : s.Occurs f model path site (.unfolded wrapperType innerField inner)) :
    ∃ w g, s.Occurs f model path (.type (.message w)) (.unfolded wrapperType innerField inner) ∧
      (s.message w).fields = [g] := by
  have htype {type : FieldType s.size}
      (h : s.Occurs f model path (.type type) (.unfolded wrapperType innerField inner)) :
      ∃ w g, s.Occurs f model path (.type (.message w)) (.unfolded wrapperType innerField inner) ∧
        (s.message w).fields = [g] := by
    rcases (occurs_represents hmodel h).cases_type with
      ⟨_, _, hpart⟩ | ⟨_, _, hpart⟩ | ⟨_, _, hpart⟩ | ⟨w, g, _, _, _, rfl, hfields, -⟩
    · cases hpart
    · cases hpart
    · cases hpart
    · exact ⟨w, g, h, hfields⟩
  cases site with
  | type type => exact htype h
  | field g =>
      obtain ⟨hlisted, hmapped⟩ := occurs_represents hmodel h
      rcases shape_cases s g with hsingular | hlist | ⟨hmap, -⟩
      · exact htype (h.single hsingular)
      · obtain ⟨_, hpart⟩ := hlisted hlist
        cases hpart
      · obtain ⟨_, _, _, _, _, -, -, -, hpart⟩ := hmapped hmap
        cases hpart

theorem not_represents_repeated {path : List (Fin s.size.messages)} {element : TypeModel}
    {container : RepeatedContainer} (type : FieldType s.size) :
    ¬ s.Represents path (.type type) (.repeated element container) := by
  intro h
  rcases h.cases_type with ⟨_, _, h⟩ | ⟨_, _, h⟩ | ⟨_, _, h⟩ | ⟨_, _, _, _, _, -, -, h⟩ <;> cases h

theorem not_represents_map {path : List (Fin s.size.messages)} {key value : TypeModel}
    (type : FieldType s.size) : ¬ s.Represents path (.type type) (.map key value) := by
  intro h
  rcases h.cases_type with ⟨_, _, h⟩ | ⟨_, _, h⟩ | ⟨_, _, h⟩ | ⟨_, _, _, _, _, -, -, h⟩ <;> cases h

/-- The entries of a map stand at the place of a field whose type has both. -/
theorem exists_entry_of_occurs (hmodel : s.typeModel f = .ok model)
    {path : List (Fin s.size.messages)} {site : Site s.size} {key value : TypeModel}
    (h : s.Occurs f model path site (.map key value)) :
    ∃ keyType valueType, s.Occurs f model path (.type keyType) key ∧
      s.Occurs f model path (.type valueType) value := by
  obtain ⟨g, hfield, hlist | hmap⟩ := exists_field_of_occurs hmodel h not_represents_map
  · obtain ⟨_, hpart⟩ := (occurs_represents hmodel hfield).1 hlist
    cases hpart
  · obtain ⟨entry, keyField, valueField, _, _, hentry, hkey, hvalue, -⟩ :=
      (occurs_represents hmodel hfield).2 hmap
    exact ⟨keyField.type, valueField.type, hfield.key hmap hentry hkey,
      hfield.value hmap hentry hvalue⟩

/-- Every part of a model has a place. -/
theorem exists_occurs (hmodel : s.typeModel f = .ok model) (h : model.Part part) :
    ∃ path site, s.Occurs f model path site part := by
  induction h with
  | root => exact ⟨[], .field f, .root⟩
  | element _ ih =>
      obtain ⟨path, site, hsite⟩ := ih
      obtain ⟨g, hfield, hlist | hmap⟩ :=
        exists_field_of_occurs hmodel hsite not_represents_repeated
      · exact ⟨path, .type g.type, hfield.element hlist⟩
      · obtain ⟨_, _, _, _, _, -, -, -, hpart⟩ := (occurs_represents hmodel hfield).2 hmap
        cases hpart
  | key _ ih =>
      obtain ⟨path, site, hsite⟩ := ih
      obtain ⟨keyType, _, hkey, -⟩ := exists_entry_of_occurs hmodel hsite
      exact ⟨path, .type keyType, hkey⟩
  | value _ ih =>
      obtain ⟨path, site, hsite⟩ := ih
      obtain ⟨_, valueType, -, hvalue⟩ := exists_entry_of_occurs hmodel hsite
      exact ⟨path, .type valueType, hvalue⟩
  | inner _ ih =>
      obtain ⟨path, site, hsite⟩ := ih
      obtain ⟨w, g, hmessage, hfields⟩ := exists_message_of_occurs hmodel hsite
      exact ⟨w :: path, .field g, hmessage.inner hfields⟩

/-- The recursion of a type model ends and is exact. For every schema and field, whatever circles
its wrappers make: the field has no model exactly if opening wrappers from it leads to a map whose
entries lack their key or their value, and the failure, which is one of the schema, names such a
map. If the field has a model, every part of it has a place. No wrapper is opened twice on the way
to a place, so there are no more of them than messages, and what is there has the form of what it
stands for: a message is opened exactly if it is a wrapper, that is, has a single field and is no
map entry, and was not opened on the way. -/
theorem wrappers_opened_once (s : Schema) (f : Field s.size) :
    ((∃ e, s.typeModel f = .error e) ↔
      ∃ g, Relation.ReflTransGen (fun g inner => ∃ w, s.Opens g w inner) f g ∧
        ∃ e, s.LacksEntryField g e) ∧
    (∀ e, s.typeModel f = .error e →
      ∃ g, Relation.ReflTransGen (fun g inner => ∃ w, s.Opens g w inner) f g ∧
        s.LacksEntryField g e) ∧
    ∀ model, s.typeModel f = .ok model →
      (∀ part, model.Part part → ∃ path site, s.Occurs f model path site part) ∧
      ∀ path site part, s.Occurs f model path site part →
        path.Nodup ∧ path.length ≤ s.size.messages ∧ s.Represents path site part := by
  refine ⟨⟨?_, ?_⟩, fun e => lacks_of_typeModel_error, ?_⟩
  · rintro ⟨e, he⟩
    obtain ⟨g, hreached, hlacks⟩ := lacks_of_typeModel_error he
    exact ⟨g, hreached, e, hlacks⟩
  · rintro ⟨g, hreached, e, hlacks⟩
    cases hmodel : s.typeModel f with
    | error e => exact ⟨e, rfl⟩
    | ok model => exact absurd hlacks (not_lacks_of_typeModel hmodel hreached)
  · intro model hmodel
    refine ⟨fun part => exists_occurs hmodel, fun path site part h => ?_⟩
    have hnodup : path.Nodup := (occurs_yields hmodel h).1
    have hlength : path.length ≤ s.size.messages := by
      simpa using List.Nodup.length_le_card hnodup
    exact ⟨hnodup, hlength, occurs_represents hmodel h⟩

def treesField : Field ⟨1, 4, 0⟩ :=
  { declaredName := "trees", fullName := "Branch.trees", number := 1, label := .repeated
    type := .message 0, dialect := .proto3, proto3Optional := false
    oneof? := none, options := ⟨none, .list, false⟩ }

def branchField : Field ⟨1, 4, 0⟩ :=
  { treesField with
      declaredName := "branch", fullName := "Tree.branch", label := .optional, type := .message 1 }

def rowsField : Field ⟨1, 4, 0⟩ :=
  { treesField with declaredName := "rows", fullName := "Table.rows", type := .message 3 }

def tableField : Field ⟨1, 4, 0⟩ :=
  { branchField with declaredName := "table", fullName := "Atlas.table", type := .message 2 }

/-- Two messages that wrap each other, one of them in a list, and a wrapper of a map with no values.
-/
def grove : Schema :=
  { size := ⟨1, 4, 0⟩
    files := #v[⟨"grove.proto", "", .proto3, "", none⟩]
    messages := #v[
      ⟨"Tree", "Tree", ⟨0, Nat.zero_lt_one⟩, none, [], [branchField], [], false⟩,
      ⟨"Branch", "Branch", ⟨0, Nat.zero_lt_one⟩, none, [], [treesField], [], false⟩,
      ⟨"Table", "Table", ⟨0, Nat.zero_lt_one⟩, none, [], [rowsField], [], false⟩,
      ⟨"RowsEntry", "Table.RowsEntry", ⟨0, Nat.zero_lt_one⟩, some "Table", ["Table"],
        [{ branchField with
            declaredName := "key", fullName := "Table.RowsEntry.key", type := .scalar .int }],
        [], true⟩]
    enums := #v[] }

/-- The model of a branch, which opens the messages around it once each. -/
def branchModel : TypeModel :=
  .unfolded "Branch" "trees"
    (.repeated (.unfolded "Tree" "branch" (.message "Branch" "Branch")) .list)

theorem wrappers_opened_once_grove :
    grove.typeModel branchField = .ok branchModel ∧
    grove.Represents [(0 : Fin 4), (1 : Fin 4)] (.type (.message (1 : Fin 4)))
      (.message "Branch" "Branch") ∧
    ∃ g, Relation.ReflTransGen (fun g inner => ∃ w, grove.Opens g w inner) tableField g ∧
      grove.LacksEntryField g (.schema "map entry Table.RowsEntry has no value field") := by
  have hmodel : grove.typeModel branchField = .ok branchModel := by decide +kernel
  have hfault : grove.typeModel tableField =
      .error (.schema "map entry Table.RowsEntry has no value field") := by decide +kernel
  obtain ⟨-, -, hplaces⟩ := wrappers_opened_once grove branchField
  obtain ⟨-, hlacks, -⟩ := wrappers_opened_once grove tableField
  have hopen : grove.Occurs branchField branchModel [] (.type (.message (1 : Fin 4)))
      branchModel := Occurs.root.single rfl
  have htrees : grove.Occurs branchField branchModel [(1 : Fin 4)] (.field treesField)
      (.repeated (.unfolded "Tree" "branch" (.message "Branch" "Branch")) .list) := hopen.inner rfl
  have htree : grove.Occurs branchField branchModel [(1 : Fin 4)] (.type (.message (0 : Fin 4)))
      (.unfolded "Tree" "branch" (.message "Branch" "Branch")) := htrees.element rfl
  have hbranch : grove.Occurs branchField branchModel [(0 : Fin 4), (1 : Fin 4)]
      (.field branchField) (.message "Branch" "Branch") := htree.inner rfl
  obtain ⟨-, -, hrepresents⟩ := (hplaces _ hmodel).2 _ _ _ (hbranch.single rfl)
  exact ⟨hmodel, hrepresents, hlacks _ hfault⟩

end Schema

end WireMapper
