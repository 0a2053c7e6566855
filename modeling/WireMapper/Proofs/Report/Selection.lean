import WireMapper.Proofs.Report.Build
import WireMapper.Proofs.Schema.Declarations

/-!
Reports on selected messages. A message that is named is found, since no other message bears its
name, and it is mapped as it is in the report on all messages, whatever is mapped before it.
-/

namespace WireMapper

open Mapping (Generator MessageMapping)

namespace Schema

/-- A name of the schema language: a letter or an underscore, then letters, digits and underscores.
-/
def isIdentifier (name : String) : Bool :=
  match name.toList with
  | [] => false
  | c :: cs => (c.isAlpha || c = '_') && cs.all fun d => d.isAlphanum || d = '_'

def NamesAreIdentifiers (s : Schema) : Prop :=
  ∀ m, (Text.split '.' (s.message m).fullName).all isIdentifier = true

variable {s : Schema}

/-- A name that begins with an identifier has no dots before it. -/
theorem bareName_of_identifiers {name : String}
    (h : (Text.split '.' name).all isIdentifier = true) : bareName name = name := by
  rw [bareName]
  cases hchars : name.toList with
  | nil => rw [List.dropWhile_nil, ← hchars, String.ofList_toList]
  | cons c cs =>
      have hdot : ¬c = '.' := by
        rintro rfl
        rw [Text.split, hchars, Text.splitChars, if_pos rfl, List.map_cons, List.all_cons] at h
        cases h
      rw [List.dropWhile_cons_of_neg (by simpa using hdot), ← hchars, String.ofList_toList]

/-- A message is found by its full name. -/
theorem message?_fullName (hdistinct : s.MessagesDistinct) (hnames : s.NamesAreIdentifiers)
    (m : Fin s.size.messages) : s.message? (s.message m).fullName = some m := by
  rw [message?, bareName_of_identifiers (hnames m)]
  cases hfound : (List.finRange s.size.messages).find?
      fun i => (s.message i).fullName = (s.message m).fullName with
  | none =>
      have hmissed := List.find?_eq_none.mp hfound m (List.mem_finRange m)
      simp at hmissed
  | some i =>
      have hsame : (s.message i).fullName = (s.message m).fullName := by
        simpa using List.find?_some hfound
      rw [hdistinct i m hsame]

end Schema

/-- Where something is chosen for each element, it can be chosen for all. -/
theorem exists_choices {α β : Type} {R : α → β → Prop} {xs : List α} (h : ∀ x ∈ xs, ∃ y, R x y) :
    ∃ ys, List.Forall₂ R xs ys := by
  induction xs with
  | nil => exact ⟨[], .nil⟩
  | cons x xs ih =>
      obtain ⟨y, hy⟩ := h x List.mem_cons_self
      obtain ⟨ys, hys⟩ := ih fun x hx => h x (List.mem_cons_of_mem _ hx)
      exact ⟨y :: ys, .cons hy hys⟩

/-- The entry of a message in a report: the only one that bears the message's name. -/
def Report.IsEntry (r : Report) (name : String) (entry : MessageMapping) : Prop :=
  ∀ other, other ∈ r.messages ∧ other.message = name ↔ other = entry

/-- Selecting messages does not change their mappings. If the names of messages are identifiers, a
report on messages that the full report has entries for is made, and its entries are those of the
full report, in the order in which the messages are named and as often as they are. -/
theorem selection_keeps_mappings (tree : FileTree) (config : Config) (schemaPath : Path)
    {schema : Schema} (hschema : Schema.ofFile tree schemaPath = .ok schema)
    (hnames : schema.NamesAreIdentifiers) {full : Report}
    (hfull : Report.build tree config schemaPath [] = .ok full) {only : List String}
    (honly : only ≠ [])
    (hentries : ∀ name ∈ only, ∃ entry ∈ full.messages, entry.message = name) :
    ∃ report, Report.build tree config schemaPath only = .ok report ∧
      List.Forall₂ full.IsEntry only report.messages := by
  obtain ⟨loaded, resolver, hloaded, hresolver, messages, -, hmessages⟩ :=
    Report.exists_of_build hfull
  obtain rfl : schema = loaded := Except.ok.inj (hschema.symm.trans hloaded)
  have hdistinct : schema.MessagesDistinct := Schema.messagesDistinct_ofFile hschema
  have hchoice : ∀ name ∈ only, ∃ m, schema.message? name = some m ∧
      full.IsEntry name ((config.generator tree schema resolver).freshMapping m) := by
    intro name hname
    obtain ⟨entry, hentry, rfl⟩ := hentries name hname
    rw [hmessages] at hentry
    obtain ⟨m, hm, rfl⟩ := List.mem_map.mp hentry
    refine ⟨m, Schema.message?_fullName hdistinct hnames m, fun other => ?_⟩
    constructor
    · rintro ⟨hother, hsame⟩
      rw [hmessages] at hother
      obtain ⟨m', -, rfl⟩ := List.mem_map.mp hother
      rw [hdistinct m' m hsame]
    · rintro rfl
      rw [hmessages]
      exact ⟨List.mem_map_of_mem hm, rfl⟩
  obtain ⟨selection, hselection⟩ := exists_choices hchoice
  have hselected : (config.generator tree schema resolver).selected only = .ok selection :=
    (Generator.selected_eq_ok honly).mpr (hselection.imp fun _ _ h => h.1)
  refine ⟨_, Report.build_of_selected hschema hresolver hselected, ?_⟩
  apply List.forall₂_map_right_iff.mpr
  exact hselection.imp fun _ _ h => h.2

/-- Two messages `A` and `B` of a number each. -/
def twoMessagesTree : FileTree where
  nodes :=
    [(["s.pb"], .file ⟨#[0x0A, 0x2B, 0x0A, 1, 0x73,
      0x22, 0x0E, 0x0A, 1, 0x41, 0x12, 9, 0x0A, 1, 0x61, 0x18, 1, 0x20, 1, 0x28, 5,
      0x22, 0x0E, 0x0A, 1, 0x42, 0x12, 9, 0x0A, 1, 0x62, 0x18, 1, 0x20, 1, 0x28, 5,
      0x62, 6, 0x70, 0x72, 0x6F, 0x74, 0x6F, 0x33]⟩)]

theorem selection_keeps_mappings_twoMessages :
    ∃ full report,
      Report.build twoMessagesTree { sourceRoots := [⟨"src"⟩] } ⟨"s.pb"⟩ [] = .ok full ∧
      Report.build twoMessagesTree { sourceRoots := [⟨"src"⟩] } ⟨"s.pb"⟩ ["B", "A", "B"] =
        .ok report ∧
      List.Forall₂ full.IsEntry ["B", "A", "B"] report.messages := by
  have hshape : (Schema.ofFile twoMessagesTree ⟨"s.pb"⟩).toOption.map (fun s =>
      ((List.finRange s.size.messages).all fun m =>
          (Text.split '.' (s.message m).fullName).all Schema.isIdentifier,
        (s.ownMessages.filter fun m => !(s.message m).isMapEntry).map fun m =>
          (s.message m).fullName)) = some (true, ["A", "B"]) := by
    decide +kernel
  obtain ⟨schema, hschema, hshape⟩ := Option.map_eq_some_iff.mp hshape
  replace hschema := ok_of_toOption hschema
  obtain ⟨hall, hmessages⟩ := Prod.mk.inj hshape
  have hnames : schema.NamesAreIdentifiers := fun m =>
    List.all_eq_true.mp hall m (List.mem_finRange m)
  obtain ⟨full, hfull, hlisted⟩ : ∃ full, Report.build twoMessagesTree
      { sourceRoots := [⟨"src"⟩] } ⟨"s.pb"⟩ [] = .ok full ∧
      full.messages.map (·.message) = ["A", "B"] :=
    ⟨_, Report.build_of_selected hschema rfl rfl, List.map_map.trans hmessages⟩
  have hentries : ∀ name ∈ ["B", "A", "B"], ∃ entry ∈ full.messages, entry.message = name := by
    intro name hname
    have hmember : name ∈ full.messages.map (·.message) := by
      rw [hlisted]
      simp only [List.mem_cons] at hname ⊢
      tauto
    exact List.mem_map.mp hmember
  obtain ⟨report, hreport, hlist⟩ := selection_keeps_mappings twoMessagesTree _ ⟨"s.pb"⟩ hschema
    hnames hfull (List.cons_ne_nil _ _) hentries
  exact ⟨full, report, hfull, hreport, hlist⟩

end WireMapper
