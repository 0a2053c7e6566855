import WireMapper.Proofs.Protobuf.Names
import WireMapper.Report.Build

/-!
The messages of a schema beside their declarations. A message bears the full name of its
declaration, which no other message bears. Its fields are those that are declared, by ascending
number. A message does not have two fields of one name, or of one number, so this order is the only
one of its kind.
-/

namespace WireMapper

open Protobuf

/-- Lists that correspond still do when both are sorted by what corresponding elements have in
common. -/
theorem forall₂_mergeSort {α β : Type} {R : α → β → Prop} {le : α → α → Bool} {le' : β → β → Bool}
    {xs : List α} {ys : List β} (h : List.Forall₂ R xs ys)
    (hle : ∀ x y x' y', R x y → R x' y' → le x x' = le' y y') :
    List.Forall₂ R (xs.mergeSort le) (ys.mergeSort le') := by
  have hpairs : ∀ p ∈ xs.zip ys, R p.1 p.2 := fun p hp => List.forall₂_zip h hp
  have hfirst : ((xs.zip ys).mergeSort fun p q => le p.1 q.1).map Prod.fst = xs.mergeSort le := by
    have hmap := List.map_mergeSort (l := xs.zip ys) (f := Prod.fst) (s := le) fun p _ q _ => rfl
    rwa [List.map_fst_zip (Nat.le_of_eq h.length_eq)] at hmap
  have hsecond : ((xs.zip ys).mergeSort fun p q => le p.1 q.1).map Prod.snd = ys.mergeSort le' := by
    have hmap := List.map_mergeSort (l := xs.zip ys) (f := Prod.snd) (s := le')
      fun p hp q hq => hle p.1 p.2 q.1 q.2 (hpairs p hp) (hpairs q hq)
    rwa [List.map_snd_zip (Nat.le_of_eq h.length_eq.symm)] at hmap
  rw [← hfirst, ← hsecond]
  apply List.forall₂_map_left_iff.mpr
  apply List.forall₂_map_right_iff.mpr
  apply List.forall₂_same.mpr
  intro p hp
  exact hpairs p (List.mem_mergeSort.mp hp)

namespace Protobuf

/-- A message that keeps the rules has no two fields of one number. -/
theorem MessageDecl.nodup_numbers {m : MessageDecl} {dialect : Dialect} {fullName : String}
    (h : m.check dialect fullName = .ok ()) : (m.fields.map (·.number)).Nodup := by
  obtain ⟨⟨⟩, -, h⟩ := bind_eq_ok.mp h
  cases hrepeated : Names.repeated? (m.fields.map (·.number)) with
  | none => exact Names.repeated?_eq_none.mp hrepeated
  | some number =>
      rw [hrepeated] at h
      cases h

def byNumber (fields : List FieldDecl) : List FieldDecl :=
  fields.mergeSort fun f g => f.number ≤ g.number

theorem byNumber_perm (fields : List FieldDecl) : (byNumber fields).Perm fields :=
  List.mergeSort_perm _ _

/-- Numbers that differ ascend strictly once they are sorted. -/
theorem byNumber_pairwise {fields : List FieldDecl} (h : (fields.map (·.number)).Nodup) :
    (byNumber fields).Pairwise (·.number < ·.number) := by
  have hsorted : (byNumber fields).Pairwise fun f g => decide (f.number ≤ g.number) = true := by
    apply List.pairwise_mergeSort
    · intro f g k hfg hgk
      exact decide_eq_true (Int.le_trans (of_decide_eq_true hfg) (of_decide_eq_true hgk))
    · intro f g
      rw [Bool.or_eq_true, decide_eq_true_iff, decide_eq_true_iff]
      exact Int.le_total _ _
  have hdistinct : (byNumber fields).Pairwise (·.number ≠ ·.number) :=
    List.pairwise_map.mp (((byNumber_perm fields).map _).nodup_iff.mpr h)
  refine (hsorted.and hdistinct).imp ?_
  rintro f g ⟨hle, hne⟩
  have hle : f.number ≤ g.number := of_decide_eq_true hle
  omega

/-- Messages are symbols, so their full names differ where those of symbols do. -/
theorem Outline.nodup_messages {o : Outline} (h : (o.symbols.map (·.name)).Nodup) :
    (o.messages.map (·.fullName)).Nodup := by
  have hmessages : (o.messages.mapFinIdx fun i m hi =>
      (⟨m.fullName, m.file, .message ⟨i, hi⟩⟩ : o.Symbol)).map (·.name) =
        o.messages.map (·.fullName) :=
    List.ext_getElem (by simp) fun i _ _ => by simp
  rw [← hmessages]
  refine List.Nodup.sublist ?_ h
  apply List.Sublist.map
  simp only [symbols, List.append_assoc]
  exact List.sublist_append_left _ _

end Protobuf

namespace Schema

/-- A field is the one that a declaration gives. -/
structure FieldIsDeclared {size : SchemaSize} (f : Field size) (decl : FieldDecl) : Prop where
  name : f.declaredName = decl.name
  number : f.number = decl.number
  label : f.label = decl.label
  scalar : ∀ type, decl.type = .scalar type → f.type = .scalar (scalarOf type)
  unused : decl.options = ⟨[], []⟩ → f.options.unused = false

/-- A message is the one that a declaration gives. -/
structure IsDeclared {size : SchemaSize} {n : Nat} (m : Message size) (d : Declared n MessageDecl) :
    Prop where
  fullName : m.fullName = d.fullName
  fields : List.Forall₂ FieldIsDeclared m.fields (byNumber d.decl.fields)
  names : (d.decl.fields.map (·.name)).Nodup
  numbers : (d.decl.fields.map (·.number)).Nodup

/-- The names of the fields are declared ones, by ascending number. -/
theorem IsDeclared.declaredNames {size : SchemaSize} {n : Nat} {m : Message size}
    {d : Declared n MessageDecl} (h : IsDeclared m d) :
    m.fields.map (·.declaredName) = (byNumber d.decl.fields).map (·.name) := by
  have hnames := List.forall₂_map_left_iff.mpr
    (List.forall₂_map_right_iff.mpr (h.fields.imp fun _ _ hf => hf.name))
  rwa [List.forall₂_eq_eq_eq] at hnames

namespace Linking

variable {o : Outline} {l : Linking o}

/-- Where no options stand, none has a value. -/
theorem optionValues_none {target : OptionTarget} {file : o.Index} {declaration : String}
    {values : Fields} (h : l.optionValues target file declaration ⟨[], []⟩ = .ok values) :
    values = [] := by
  rw [optionValues, Typing.optionValues] at h
  split at h
  · exact (Except.ok.inj h).symm
  · exact (Except.ok.inj h).symm

theorem unused_of_none : (l.fieldOptions []).unused = false := by
  have hnone (x? : Option (TypedExtension o)) :
      x?.bind (fun x => lastValue? [] x.field.decl.number.toNat) = none := by
    cases x? <;> rfl
  simp only [fieldOptions, flagOption?, mapperOption?, hnone]
  rfl

/-- Linking a field gives it a type and keeps its name, number and label as they are declared. -/
theorem fieldIsDeclared {m : Declared o.files.length MessageDecl} {oneofs : List Oneof}
    {decl : FieldDecl} {f : TypedField o} {field : Field (outlineSize o)}
    (htyped : l.names.field m.file m.fullName decl = .ok f) (h : l.field m oneofs f = .ok field) :
    FieldIsDeclared field decl := by
  have hkind := Names.kind_of_field htyped
  obtain rfl := Names.decl_of_field htyped
  obtain ⟨values, hvalues, h⟩ := bind_eq_ok.mp h
  cases pure_eq_ok.mp h
  refine ⟨rfl, rfl, rfl, fun type htype => ?_, fun hnone => ?_⟩
  · rw [htype] at hkind
    exact congrArg typeOf (Except.ok.inj hkind).symm
  · rw [hnone] at hvalues
    obtain rfl := optionValues_none hvalues
    exact unused_of_none

/-- Each field of a message is linked from the declaration in its place. -/
theorem fieldsDeclared {m : Declared o.files.length MessageDecl} {oneofs : List Oneof}
    {decls : List FieldDecl} {typed : List (TypedField o)} {fields : List (Field (outlineSize o))}
    (htyped : decls.mapM (l.names.field m.file m.fullName) = .ok typed)
    (h : typed.mapM (l.field m oneofs) = .ok fields) :
    List.Forall₂ FieldIsDeclared fields decls := by
  replace htyped := mapM_eq_ok.mp htyped
  replace h := mapM_eq_ok.mp h
  induction htyped generalizing fields with
  | nil =>
      cases h
      exact .nil
  | cons hfirst _ ih =>
      cases h with
      | cons hfield hrest => exact .cons (fieldIsDeclared hfirst hfield) (ih hrest)

/-- A message keeps the rules, bears the name of its declaration, and has the fields that are
declared by ascending number. -/
theorem inversion_of_message {position : Fin o.messages.length} {m : Message (outlineSize o)}
    (h : l.message position = .ok m) :
    let declared := o.messages.get position
    declared.decl.check (l.dialects.get declared.file) declared.fullName = .ok () ∧
      m.fullName = declared.fullName ∧
      ∃ oneofs fields, (l.typing.fields.get position).mapM (l.field declared oneofs) = .ok fields ∧
        m.fields = fields.mergeSort fun f g => f.number ≤ g.number := by
  obtain ⟨⟨⟩, hcheck, h⟩ := bind_eq_ok.mp h
  obtain ⟨-, -, h⟩ := bind_eq_ok.mp h
  obtain ⟨-, -, h⟩ := bind_eq_ok.mp h
  obtain ⟨values, -, h⟩ := bind_eq_ok.mp h
  obtain ⟨fields, hfields, h⟩ := bind_eq_ok.mp h
  cases pure_eq_ok.mp h
  exact ⟨hcheck, rfl, _, fields, hfields, rfl⟩

/-- A message that was linked is the one declared at its position. -/
theorem isDeclared_of_message
    {position : Fin o.messages.length} {m : Message (outlineSize o)}
    (h : l.message position = .ok m) (htyping : l.names.typing = .ok l.typing)
    (hnames : (o.symbols.map (·.name)).Nodup) : IsDeclared m (o.messages.get position) := by
  obtain ⟨hcheck, hname, oneofs, fields, hfields, hsorted⟩ := inversion_of_message h
  have hdeclared := fieldsDeclared (Names.fields_of_typing htyping position) hfields
  refine ⟨hname, ?_, Outline.nodup_fields hnames (List.get_mem _ _),
    MessageDecl.nodup_numbers hcheck⟩
  rw [hsorted]
  refine forall₂_mergeSort hdeclared ?_
  intro f decl f' decl' hf hf'
  rw [hf.number, hf'.number]

/-- The messages of a linked schema are linked one by one. -/
theorem message_of_schema {s : Schema} (h : l.schema = .ok s) :
    ∃ messages : Vector (Message (outlineSize o)) o.messages.length,
      (∀ i, l.message i = .ok (messages.get i)) ∧
      ∃ files enums, s = ⟨outlineSize o, files, messages, enums⟩ := by
  obtain ⟨-, -, h⟩ := bind_eq_ok.mp h
  obtain ⟨-, -, h⟩ := bind_eq_ok.mp h
  obtain ⟨files, -, h⟩ := bind_eq_ok.mp h
  obtain ⟨messages, hmessages, h⟩ := bind_eq_ok.mp h
  obtain ⟨enums, -, h⟩ := bind_eq_ok.mp h
  refine ⟨messages, fun i => ?_, files, enums, (pure_eq_ok.mp h).symm⟩
  have hget : (Vector.ofFn fun i : Fin o.messages.length => i).get i = i := Vector.getElem_ofFn i.2
  rw [← get_of_mapM hmessages i, hget]

end Linking

def FieldsDistinct (s : Schema) : Prop :=
  ∀ m, ((s.message m).fields.map (·.declaredName)).Nodup

def MessagesDistinct (s : Schema) : Prop :=
  ∀ m m', (s.message m).fullName = (s.message m').fullName → m = m'

/-- The messages of a schema are those that are declared, one each. -/
theorem messages_of_ofFiles {files : List FileDecl} {s : Schema} (h : ofFiles files = .ok s) :
    ((Outline.ofFiles files).messages.map (·.fullName)).Nodup ∧ s.MessagesDistinct ∧
      ∀ m, ∃ d ∈ (Outline.ofFiles files).messages, IsDeclared (s.message m) d := by
  obtain ⟨dialects, -, h⟩ := bind_eq_ok.mp h
  obtain ⟨names, hnames, h⟩ := bind_eq_ok.mp h
  obtain ⟨typing, htyping, h⟩ := bind_eq_ok.mp h
  obtain ⟨messages, hmessages, _, _, rfl⟩ := Linking.message_of_schema h
  have hdistinct := Outline.nodup_messages (Names.nodup_of_ofOutline hnames)
  have hdeclared (m : Fin (Outline.ofFiles files).messages.length) :
      IsDeclared (messages.get m) ((Outline.ofFiles files).messages.get m) :=
    Linking.isDeclared_of_message (hmessages m) htyping (Names.nodup_of_ofOutline hnames)
  refine ⟨hdistinct, ?_, ?_⟩
  · intro m m' hsame
    change (messages.get m).fullName = (messages.get m').fullName at hsame
    rw [(hdeclared m).fullName, (hdeclared m').fullName] at hsame
    have hget := List.inj_on_of_nodup_map hdistinct (List.get_mem _ m) (List.get_mem _ m') hsame
    exact List.nodup_iff_injective_get.mp hdistinct.of_map hget
  · intro m
    exact ⟨_, List.get_mem _ m, hdeclared m⟩

/-- Whatever schema a file gives, it is made up of the files that are listed there. -/
theorem exists_ofFiles_of_ofFile {tree : FileTree} {path : Path} {s : Schema}
    (h : ofFile tree path = .ok s) : ∃ files, ofFiles files = .ok s := by
  rw [ofFile] at h
  split at h
  · cases h
  · split at h
    · cases h
    · rename_i hdecode
      cases h
      rw [decode] at hdecode
      split at hdecode
      · cases hdecode
      · split at hdecode
        · cases hdecode
        · cases hdecode
          exact ⟨_, ‹_›⟩

/-- Since no symbol is declared twice, no two messages of an accepted schema share a name. -/
theorem messagesDistinct_ofFile {tree : FileTree} {path : Path} {s : Schema}
    (h : ofFile tree path = .ok s) : s.MessagesDistinct := by
  obtain ⟨files, hfiles⟩ := exists_ofFiles_of_ofFile h
  exact (messages_of_ofFiles hfiles).2.1

/-- The fields of a message of an accepted schema have different names. -/
theorem fieldsDistinct_ofFile {tree : FileTree} {path : Path} {s : Schema}
    (h : ofFile tree path = .ok s) : s.FieldsDistinct := by
  obtain ⟨files, hfiles⟩ := exists_ofFiles_of_ofFile h
  intro m
  obtain ⟨d, -, hmessage⟩ := (messages_of_ofFiles hfiles).2.2 m
  rw [hmessage.declaredNames]
  exact ((byNumber_perm _).map _).nodup_iff.mpr hmessage.names

end Schema

end WireMapper
