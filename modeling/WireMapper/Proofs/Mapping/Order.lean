import WireMapper.Proofs.Mapping.Cache
import WireMapper.Proofs.Mapping.Listed
import WireMapper.Proofs.Schema.Declarations

/-!
The order in which the mapping of a message lists fields. A schema has the fields of a message by
ascending number, and the three lists follow the schema. So a list is in the order of declaration
exactly if the numbers of the fields on it ascend in that order.
-/

namespace WireMapper

open Protobuf

/-- In a list without repetitions, the elements of a sublist stand as they do in the sublist. -/
theorem filter_mem_eq_of_sublist {xs ys : List String} (hys : ys.Nodup) (h : xs.Sublist ys) :
    ys.filter (· ∈ xs) = xs := by
  induction h with
  | slnil => rfl
  | @cons xs ys y h ih =>
      obtain ⟨hy, hys⟩ := List.nodup_cons.mp hys
      have hout : y ∉ xs := fun hmem => hy (h.subset hmem)
      rw [List.filter_cons_of_neg (by simpa using hout), ih hys]
  | @cons_cons xs ys y h ih =>
      obtain ⟨hy, hys⟩ := List.nodup_cons.mp hys
      have hrest : ys.filter (· ∈ y :: xs) = ys.filter (· ∈ xs) := by
        apply List.filter_congr
        intro x hx
        have hne : x ≠ y := fun hsame => hy (hsame ▸ hx)
        simp [hne]
      rw [List.filter_cons_of_pos (by simp), hrest, ih hys]

namespace Protobuf

variable {fields : List FieldDecl}

/-- Fields with different names are told apart by their names, in lists too. -/
theorem eq_of_map_name (hnames : (fields.map (·.name)).Nodup) {fs gs : List FieldDecl}
    (hfs : fs ⊆ fields) (hgs : gs ⊆ fields) (h : fs.map (·.name) = gs.map (·.name)) : fs = gs := by
  have hlength : fs.length = gs.length := by simpa using congrArg List.length h
  apply List.ext_getElem hlength
  intro i hf hg
  apply List.inj_on_of_nodup_map hnames (hfs (List.getElem_mem hf)) (hgs (List.getElem_mem hg))
  have hname := congrArg (·[i]?) h
  simpa [hf, hg] using hname

/-- Of two fields on a list of names, the one that is declared first has the smaller number. -/
def AscendsOn (fields : List FieldDecl) (listed : List String) : Prop :=
  fields.Pairwise fun f g => f.name ∈ listed → g.name ∈ listed → f.number < g.number

/-- A list that goes by the numbers of fields goes by their declarations exactly if the numbers
ascend in the order of declaration. -/
theorem sublist_declared_iff (hnames : (fields.map (·.name)).Nodup)
    (hnumbers : (fields.map (·.number)).Nodup) {listed : List String}
    (h : listed.Sublist ((byNumber fields).map (·.name))) :
    listed.Sublist (fields.map (·.name)) ↔ AscendsOn fields listed := by
  obtain ⟨fs, hfs, rfl⟩ := List.sublist_map_iff.mp h
  have hascending : fs.Pairwise (·.number < ·.number) := (byNumber_pairwise hnumbers).sublist hfs
  have hsubset : fs ⊆ fields := fun f hf => (byNumber_perm fields).subset (hfs.subset hf)
  have hdeclared : AscendsOn fields (fs.map (·.name)) ↔
      (fields.filter (·.name ∈ fs.map (·.name))).Pairwise (·.number < ·.number) := by
    rw [List.pairwise_filter, AscendsOn]
    simp only [decide_eq_true_eq]
  rw [hdeclared]
  constructor
  · intro hsublist
    have hsame : fields.filter (·.name ∈ fs.map (·.name)) = fs := by
      apply eq_of_map_name hnames (List.filter_subset_self _) hsubset
      have hlisted := filter_mem_eq_of_sublist hnames hsublist
      rwa [List.filter_map] at hlisted
    rw [hsame]
    exact hascending
  · intro hpairwise
    have hmem (f : FieldDecl) : f ∈ fields.filter (·.name ∈ fs.map (·.name)) ↔ f ∈ fs := by
      rw [List.mem_filter, decide_eq_true_iff]
      constructor
      · rintro ⟨hf, hname⟩
        obtain ⟨g, hg, hsame⟩ := List.mem_map.mp hname
        rwa [← List.inj_on_of_nodup_map hnames (hsubset hg) hf hsame]
      · exact fun hf => ⟨hsubset hf, List.mem_map_of_mem hf⟩
    have hperm : (fields.filter (·.name ∈ fs.map (·.name))).Perm fs :=
      (List.perm_ext_iff_of_nodup (hnames.of_map.filter _)
        (hfs.nodup ((byNumber_perm fields).nodup_iff.mpr hnames.of_map))).mpr hmem
    have hsame : fields.filter (·.name ∈ fs.map (·.name)) = fs := by
      apply hperm.eq_of_pairwise _ hpairwise hascending
      intro f g _ _ hfg hgf
      omega
    have hsublist : fs.Sublist fields := hsame ▸ List.filter_sublist
    exact hsublist.map _

end Protobuf

namespace Mapping

open Hierarchy (Cache)

namespace MessageMapping

def lists (mapping : MessageMapping) : List (List String) :=
  [mapping.fields.map (·.field), mapping.skipped, mapping.diagnostics.map (·.field)]

/-- Each list follows the order of the outcomes. -/
theorem sublist_of_mem_lists {mapping : MessageMapping} {listed : List String}
    (h : listed ∈ mapping.lists) : listed.Sublist (mapping.outcomes.map (·.field)) := by
  simp only [lists, List.mem_cons, List.not_mem_nil, or_false] at h
  rcases h with rfl | rfl | rfl
  · exact FieldOutcome.picksNamed_mapped?.sublist
  · have hskipped : (mapping.skipped.map id).Sublist (mapping.outcomes.map (·.field)) :=
      FieldOutcome.picksNamed_skipped?.sublist
    rwa [List.map_id] at hskipped
  · exact (FieldOutcome.picksNamed_diagnostic? mapping.message).sublist

end MessageMapping

/-- A generator for which no class is found. -/
abbrev sourceless (schema : Schema) : Generator :=
  { schema, ask := fun className _ => .error (.notFound className), policy := .never }

def IsPlainNumber (decl : FieldDecl) : Prop :=
  decl.label = .optional ∧ decl.type = .scalar .int32 ∧ decl.options = ⟨[], []⟩

instance (decl : FieldDecl) : Decidable (IsPlainNumber decl) :=
  inferInstanceAs (Decidable (_ ∧ _ ∧ _))

/-- Where no class is found, such a number is mapped on a guess. -/
theorem sourceless_outcome {s : Schema} {m : Fin s.size.messages} {f : Field s.size}
    {decl : FieldDecl} (hf : Schema.FieldIsDeclared f decl) (hplain : IsPlainNumber decl) :
    ∃ mapping, (sourceless s).freshOutcome m f = .mapped mapping ∧ mapping.field = decl.name := by
  obtain ⟨hlabel, htype, hoptions⟩ := hplain
  have hmodel : s.typeModel f = .ok (.scalar .int false) := by
    have hrepeated : f.isRepeated = false := by
      rw [Field.isRepeated, hf.label, hlabel]
      rfl
    rw [Schema.typeModel, Schema.shapeModel, hf.scalar _ htype, hrepeated]
    simp only [Schema.typeModelFrom, Schema.scalarOf]
  have hbecomes := Generator.freshOutcome_becomes (sourceless s) m f
  generalize (sourceless s).freshOutcome m f = outcome at hbecomes ⊢
  cases hbecomes with
  | skipped hunused => cases (hf.unused hoptions).symm.trans hunused
  | untyped _ hnone => cases hmodel.symm.trans hnone
  | cyclic _ _ hanswer hcyclic =>
      cases Except.error.inj hanswer
      cases hcyclic
  | @mapped _ _ mapping _ _ _ hmaps => exact ⟨mapping, rfl, hmaps.field.trans hf.name⟩

/-- A message `M` that declares `b`, with the number 2, before `a`, with the number 1. -/
def swappedSet : List UInt8 :=
  [0x0A, 0x26, 0x0A, 1, 0x73, 0x22, 0x19, 0x0A, 1, 0x4D, 0x12, 9, 0x0A, 1, 0x62, 0x18, 2,
    0x20, 1, 0x28, 5, 0x12, 9, 0x0A, 1, 0x61, 0x18, 1, 0x20, 1, 0x28, 5, 0x62, 6, 0x70, 0x72, 0x6F,
    0x74, 0x6F, 0x33]

/-- The set decodes to one message, which declares `b` before `a`. -/
theorem swappedSet_declares :
    ∃ files schema, decodeFiles swappedSet = .ok files ∧ Schema.ofFiles files = .ok schema ∧
      ∃ (m : Fin schema.size.messages) (d : Declared files.length MessageDecl) (a b : FieldDecl),
        (Outline.ofFiles files).messages = [d] ∧ Schema.IsDeclared (schema.message m) d ∧
        d.decl.fields = [b, a] ∧ byNumber d.decl.fields = [a, b] ∧
        a.name = "a" ∧ b.name = "b" ∧ IsPlainNumber a ∧ IsPlainNumber b := by
  have hshape : (decodeFiles swappedSet).toOption.bind (fun files =>
      (Schema.ofFiles files).toOption.map fun schema => (schema.size.messages,
        (Outline.ofFiles files).messages.map fun d => d.decl.fields.map fun f =>
          (f.name, f.number, decide (IsPlainNumber f)))) =
      some (1, [[("b", 2, true), ("a", 1, true)]]) := by
    decide +kernel
  obtain ⟨files, hfiles, hshape⟩ := Option.bind_eq_some_iff.mp hshape
  obtain ⟨schema, hschema, hshape⟩ := Option.map_eq_some_iff.mp hshape
  obtain ⟨hsize, hmessages⟩ := Prod.mk.inj hshape
  obtain ⟨d, hd, hfields⟩ := List.map_eq_singleton_iff.mp hmessages
  obtain ⟨b, rest, hfields, hb, hrest⟩ := List.map_eq_cons_iff.mp hfields
  obtain ⟨a, rfl, ha⟩ := List.map_eq_singleton_iff.mp hrest
  simp only [Prod.mk.injEq, decide_eq_true_eq] at hb ha
  obtain ⟨hbname, hbnumber, hbplain⟩ := hb
  obtain ⟨haname, hanumber, haplain⟩ := ha
  have hschema := ok_of_toOption hschema
  obtain ⟨-, -, hdeclared⟩ := Schema.messages_of_ofFiles hschema
  obtain ⟨d', hd', hmessage⟩ := hdeclared ⟨0, by omega⟩
  obtain rfl : d' = d := by simpa [hd] using hd'
  have hsorted : byNumber d'.decl.fields = [a, b] := by
    rw [hfields]
    simp [byNumber, List.mergeSort, hanumber, hbnumber]
  exact ⟨files, schema, ok_of_toOption hfiles, hschema, _, d', a, b, hd, hmessage, hfields, hsorted,
    haname, hbname, haplain, hbplain⟩

/-- Fields are listed by number. Each list of a mapping goes by ascending field number, whatever was
asked before. So it keeps the order of declaration exactly if, of any two fields on it, the one that
is declared first has the smaller number. -/
theorem fields_listed_by_number {files : List FileDecl} {g : Generator}
    (hschema : Schema.ofFiles files = .ok g.schema) (m : Fin g.schema.size.messages) (cache : Cache)
    {d : Declared files.length MessageDecl} (hd : d ∈ (Outline.ofFiles files).messages)
    (hname : d.fullName = (g.schema.message m).fullName) {listed : List String}
    (hlisted : listed ∈ (g.mapMessage m cache).1.lists) :
    listed.Sublist ((byNumber d.decl.fields).map (·.name)) ∧
      (listed.Sublist (d.decl.fields.map (·.name)) ↔ AscendsOn d.decl.fields listed) := by
  obtain ⟨hdistinct, -, hdeclared⟩ := Schema.messages_of_ofFiles hschema
  obtain ⟨d', hd', hmessage⟩ := hdeclared m
  obtain rfl : d' = d :=
    List.inj_on_of_nodup_map hdistinct hd' hd (hmessage.fullName.symm.trans hname.symm)
  have houtcomes : List.Forall₂ FieldOutcome.IsOf (g.mapMessage m cache).1.outcomes
      (g.schema.message m).fields := Generator.outcomes_isOf _
  have hsublist := MessageMapping.sublist_of_mem_lists hlisted
  rw [MessageMapping.names_of_outcomes houtcomes, hmessage.declaredNames] at hsublist
  exact ⟨hsublist, sublist_declared_iff hmessage.names hmessage.numbers hsublist⟩

/-- No list has `b` before `a`. -/
theorem fields_listed_by_number_swapped :
    ∃ files schema, decodeFiles swappedSet = .ok files ∧ Schema.ofFiles files = .ok schema ∧
      ∃ m : Fin schema.size.messages,
        ∀ listed ∈ ((sourceless schema).mapMessage m Cache.empty).1.lists,
          listed.Sublist ["a", "b"] := by
  obtain ⟨files, schema, hfiles, hschema, m, d, a, b, hd, hmessage, -, hsorted, haname,
      hbname, -⟩ := swappedSet_declares
  refine ⟨files, schema, hfiles, hschema, m, fun listed hlisted => ?_⟩
  have hmember : d ∈ (Outline.ofFiles files).messages := hd ▸ List.mem_singleton_self d
  have hbyNumber := (fields_listed_by_number (g := sourceless schema) hschema m Cache.empty hmember
    hmessage.fullName.symm hlisted).1
  rwa [hsorted, List.map_cons, List.map_cons, haname, hbname] at hbyNumber

/-- The mapped fields of a message that declares `b` before `a` stand in the other order. -/
theorem declaration_order_lost :
    ∃ files schema, decodeFiles swappedSet = .ok files ∧ Schema.ofFiles files = .ok schema ∧
      ∃ (m : Fin schema.size.messages) (d : Declared files.length MessageDecl),
        (Outline.ofFiles files).messages = [d] ∧ d.fullName = (schema.message m).fullName ∧
        d.decl.fields.map (·.name) = ["b", "a"] ∧
        ((sourceless schema).mapMessage m Cache.empty).1.fields.map (·.field) = ["a", "b"] := by
  obtain ⟨files, schema, hfiles, hschema, m, d, a, b, hd, hmessage, hfields, hsorted,
    haname, hbname, haplain, hbplain⟩ := swappedSet_declares
  have hnames : d.decl.fields.map (·.name) = ["b", "a"] := by
    rw [hfields, ← haname, ← hbname]
    rfl
  refine ⟨files, schema, hfiles, hschema, m, d, hd, hmessage.fullName.symm, hnames, ?_⟩
  have hlist := hmessage.fields
  rw [hsorted] at hlist
  obtain ⟨fa, rest, hfa, hrest, hshape⟩ := List.forall₂_cons_right_iff.mp hlist
  obtain ⟨fb, rest', hfb, hrest', rfl⟩ := List.forall₂_cons_right_iff.mp hrest
  rw [List.forall₂_nil_right_iff.mp hrest'] at hshape
  obtain ⟨first, hfirst, hfirstName⟩ := sourceless_outcome (m := m) hfa haplain
  obtain ⟨second, hsecond, hsecondName⟩ := sourceless_outcome (m := m) hfb hbplain
  have hmapping : ((sourceless schema).mapMessage m Cache.empty).1 =
      (sourceless schema).freshMapping m :=
    (Generator.mapMessage_of_agrees Cache.agrees_empty).1
  have houtcomes : ((sourceless schema).freshMapping m).outcomes =
      [.mapped first, .mapped second] := by
    change (schema.message m).fields.map ((sourceless schema).freshOutcome m) = _
    rw [hshape, List.map_cons, List.map_cons, hfirst, hsecond]
    rfl
  rw [hmapping, MessageMapping.fields, houtcomes, ← haname, ← hbname, ← hfirstName, ← hsecondName]
  rfl

end Mapping

end WireMapper
