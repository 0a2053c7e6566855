import WireMapper.Proofs.Mapping.Listed
import WireMapper.Proofs.Report.Build
import WireMapper.Proofs.Schema.FieldModel
import WireMapper.Proofs.TypeModel.Operand

/-!
Which failures a field survives. A field that is in use fails if its type has no model or its
classes extend each other in a cycle. After every other failure of the hierarchy it is mapped as one
that is reached directly, and a warning says so. What the fields before it came to plays no part in
this: the answer that counts is the one that is given when nothing is kept.
-/

namespace WireMapper

open Hierarchy (Resolution Resolver)

namespace Mapping

/-- A field, given by its name, was not mapped, and an error says why. -/
def MessageMapping.Fails (mapping : MessageMapping) (field : String) : Prop :=
  mapping.fieldsOf field = [] ∧ ∃ d, mapping.diagnosticsOf field = [d] ∧ d.severity = .error

namespace FieldOutcome

variable {message : String} {field : FieldMapping}

theorem diagnostic?_of_resolved {r : Resolution} (h : field.domain.access = .resolved r) :
    (mapped field).diagnostic? message = none := by
  rw [diagnostic?, h]

theorem diagnostic?_of_assumed {e : Hierarchy.Error} (h : field.domain.access = .assumedDirect e) :
    (mapped field).diagnostic? message =
      some ⟨.warning, message, field.field, e.code,
        "visibility unresolved, assuming direct access: " ++ e.message⟩ := by
  rw [diagnostic?, h]

end FieldOutcome

namespace Generator

section

variable (g : Generator) (m : Fin g.schema.size.messages) (f : Field g.schema.size)

/-- The copy of a field onto the builder reads the domain value from an expression. -/
def CopiesFrom (expression : String) (mapping : FieldMapping) : Prop :=
  (g.conversion m f mapping.domain.model).toWire g.builderName expression = .ok mapping.toWire

/-- A field is mapped as the answer about its place in the hierarchy says: by a call of its getter
if it is hidden there, and by its name if not. -/
structure Follows (r : Resolution) (mapping : FieldMapping) : Prop where
  access : mapping.domain.access = .resolved r
  byGetter : g.CopiesFrom m f (f.getter ++ "()") mapping ↔ r.needsAccessor = true
  byName : g.CopiesFrom m f f.generatedName mapping ↔ r.needsAccessor = false

/-- A field is mapped as one that is reached directly, for want of an answer. -/
structure Assumes (e : Hierarchy.Error) (mapping : FieldMapping) : Prop where
  access : mapping.domain.access = .assumedDirect e
  name : mapping.domain.identifier.name = f.generatedName
  copies : g.CopiesFrom m f f.generatedName mapping

/-- What the mapping of a message says of one of its fields, by the answer that is given about the
field's place in the hierarchy when nothing is kept. -/
structure Classified (answer : Reply) (mapping : MessageMapping) : Prop where
  unused : f.options.unused = true →
    f.declaredName ∈ mapping.skipped ∧ mapping.fieldsOf f.declaredName = [] ∧
      mapping.diagnosticsOf f.declaredName = []
  failed : f.options.unused = false →
    (mapping.Fails f.declaredName ↔
      (∃ e, g.schema.typeModel f = .error e ∧ e.IsSchemaFault) ∨
        ∃ classes, answer = .error (.cyclic classes))
  assumed : f.options.unused = false →
    ∀ model e, g.schema.typeModel f = .ok model → answer = .error e →
      (∀ classes, e ≠ .cyclic classes) →
      ∃ field warning, mapping.fieldsOf f.declaredName = [field] ∧ g.Assumes m f e field ∧
        mapping.diagnosticsOf f.declaredName = [warning] ∧ warning.severity = .warning ∧
        warning.code = e.code
  resolved : f.options.unused = false →
    ∀ model r, g.schema.typeModel f = .ok model → answer = .ok r →
      ∃ field, mapping.fieldsOf f.declaredName = [field] ∧ g.Follows m f r field ∧
        mapping.diagnosticsOf f.declaredName = []

end

variable {g : Generator} {m : Fin g.schema.size.messages} {f : Field g.schema.size}
  {kept : TypeModel} {field : FieldMapping} {answer : Reply}

/-- The expression that a mapping reads is found in its copy. -/
theorem Maps.copiesFrom {access : Access} (h : g.Maps m f kept access field) :
    g.CopiesFrom m f (if access.needsAccessor then f.getter ++ "()" else f.generatedName)
      field := by
  have hmodel : field.domain.model = kept := by rw [h.domain, domainSide]
  have hexpression : field.domain.expression =
      if access.needsAccessor then f.getter ++ "()" else f.generatedName := by
    rw [h.domain, domainSide, DomainField.expression, DomainField.needsAccessor, identifier]
    cases access.needsAccessor <;> rfl
  rw [CopiesFrom, hmodel, ← hexpression]
  exact h.toWire

/-- A copy does not read a field both by its name and by a call. -/
theorem not_copiesFrom_both (hgetter : g.CopiesFrom m f (f.getter ++ "()") field)
    (hname : g.CopiesFrom m f f.generatedName field) : False := by
  have hparens := FieldConversion.parens_eq_of_toWire hgetter hname
  have hless := Naming.parens_lt_getterCall f.generatedName
  rw [Field.getter] at hparens
  omega

/-- A resolved field is read by its getter or by its name, as the answer says. -/
theorem Maps.follows {r : Resolution} (h : g.Maps m f kept (.resolved r) field) :
    g.Follows m f r field := by
  have hcopies := h.copiesFrom
  change g.CopiesFrom m f (if r.needsAccessor then _ else _) field at hcopies
  refine ⟨?_, ?_, ?_⟩
  · rw [h.domain, domainSide]
  · cases hneeds : r.needsAccessor with
    | true =>
        rw [hneeds] at hcopies
        exact iff_of_true hcopies rfl
    | false =>
        rw [hneeds] at hcopies
        exact iff_of_false (fun hgetter => not_copiesFrom_both hgetter hcopies) Bool.noConfusion
  · cases hneeds : r.needsAccessor with
    | true =>
        rw [hneeds] at hcopies
        exact iff_of_false (fun hname => not_copiesFrom_both hcopies hname) Bool.noConfusion
    | false =>
        rw [hneeds] at hcopies
        exact iff_of_true hcopies rfl

/-- A field without an answer is read by its name. -/
theorem Maps.assumes {e : Hierarchy.Error} (h : g.Maps m f kept (.assumedDirect e) field) :
    g.Assumes m f e field := by
  refine ⟨?_, ?_, h.copiesFrom⟩
  · rw [h.domain, domainSide]
  · rw [h.domain, domainSide, identifier]
    rfl

section

variable {mapping : MessageMapping}

/-- A field that is not in use is found on the list of skipped fields alone. -/
theorem classified_of_unused (hunused : f.options.unused = true)
    (hskipped : f.declaredName ∈ mapping.skipped) (hfields : mapping.fieldsOf f.declaredName = [])
    (hdiagnostics : mapping.diagnosticsOf f.declaredName = []) :
    g.Classified m f answer mapping := by
  have hnot : ¬f.options.unused = false := ne_false_of_eq_true hunused
  refine ⟨fun _ => ⟨hskipped, hfields, hdiagnostics⟩, ?_, ?_, ?_⟩ <;>
    exact fun hused => absurd hused hnot

/-- A field that fails has no type model or no place in the hierarchy. -/
theorem classified_of_fails (hused : f.options.unused = false)
    (hfails : mapping.Fails f.declaredName)
    (hcause : (∃ e, g.schema.typeModel f = .error e ∧ e.IsSchemaFault) ∨
      ∃ classes, answer = .error (.cyclic classes)) :
    g.Classified m f answer mapping := by
  refine ⟨fun hunused => ?_, fun _ => iff_of_true hfails hcause, ?_, ?_⟩
  · cases hused.symm.trans hunused
  · intro _ model e htype hanswer hother
    obtain ⟨e', he', -⟩ | ⟨classes, hclasses⟩ := hcause
    · cases htype.symm.trans he'
    · cases hanswer.symm.trans hclasses
      exact absurd rfl (hother classes)
  · intro _ model r htype hanswer
    obtain ⟨e', he', -⟩ | ⟨classes, hclasses⟩ := hcause
    · cases htype.symm.trans he'
    · cases hanswer.symm.trans hclasses

/-- A field that is mapped has a type model and an access. -/
theorem classified_of_mapped {model : TypeModel} {access : Access}
    (hused : f.options.unused = false) (htype : g.schema.typeModel f = .ok model)
    (hgranted : Access.Granted answer access) (hmaps : g.Maps m f kept access field)
    (hfields : mapping.fieldsOf f.declaredName = [field])
    (hdiagnostics : mapping.diagnosticsOf f.declaredName =
      ((FieldOutcome.mapped field).diagnostic? mapping.message).toList) :
    g.Classified m f answer mapping := by
  have hmapped : ¬mapping.Fails f.declaredName := by
    rintro ⟨hnone, -⟩
    cases hfields.symm.trans hnone
  have htyped : ¬∃ e, g.schema.typeModel f = .error e ∧ e.IsSchemaFault := by
    rintro ⟨e, he, -⟩
    cases htype.symm.trans he
  have hreached : ¬∃ classes, answer = .error (.cyclic classes) := by
    rintro ⟨classes, rfl⟩
    cases hgranted with
    | assumedDirect hrecoverable => cases hrecoverable
  refine ⟨fun hunused => ?_, fun _ => iff_of_false hmapped (not_or.mpr ⟨htyped, hreached⟩), ?_, ?_⟩
  · cases hused.symm.trans hunused
  · rintro _ _ e _ rfl _
    cases hgranted with
    | assumedDirect hrecoverable =>
        rw [FieldOutcome.diagnostic?_of_assumed hmaps.assumes.access] at hdiagnostics
        exact ⟨field, _, hfields, hmaps.assumes, hdiagnostics, rfl, rfl⟩
  · rintro _ _ r _ rfl
    cases hgranted with
    | resolved =>
        rw [FieldOutcome.diagnostic?_of_resolved hmaps.follows.access] at hdiagnostics
        exact ⟨field, hfields, hmaps.follows, hdiagnostics⟩

/-- A field is classified by what it came to. -/
theorem classified_of_becomes {outcome : FieldOutcome} (hbecomes : g.Becomes m f answer outcome)
    (htells : mapping.Tells outcome) : g.Classified m f answer mapping := by
  obtain ⟨hfields, hskipped, hdiagnostics⟩ := htells
  cases hbecomes with
  | skipped hunused => exact classified_of_unused hunused (hskipped.mpr rfl) hfields hdiagnostics
  | untyped hused htype =>
      apply classified_of_fails hused ⟨hfields, _, hdiagnostics, rfl⟩
      exact Or.inl ⟨_, htype, Schema.typeModel_fault htype⟩
  | cyclic hused _ hanswer hcyclic =>
      obtain ⟨classes, rfl⟩ := isRecoverable_eq_false_iff.mp hcyclic
      apply classified_of_fails hused ⟨hfields, _, hdiagnostics, rfl⟩
      exact Or.inr ⟨classes, hanswer⟩
  | @mapped model access field hused htype hgranted hmaps =>
      have hname : (FieldOutcome.mapped field).field = f.declaredName := hmaps.field
      rw [hname] at hfields hdiagnostics
      exact classified_of_mapped hused htype hgranted hmaps hfields hdiagnostics

end

/-- The mapping of a message tells of each of its fields what the field comes to if nothing is kept.
-/
theorem tells_freshMapping (hdistinct : g.schema.FieldsDistinct)
    (hf : f ∈ (g.schema.message m).fields) : (g.freshMapping m).Tells (g.freshOutcome m f) := by
  have houtcomes : List.Forall₂ FieldOutcome.IsOf (g.freshMapping m).outcomes
      (g.schema.message m).fields :=
    List.forall₂_map_left_iff.mpr (List.forall₂_same.mpr fun _ _ => outcome_isOf)
  apply MessageMapping.tells_of_mem
  · rw [MessageMapping.names_of_outcomes houtcomes]
    exact hdistinct m
  · exact List.mem_map_of_mem hf

/-- A message tells of each field what the hierarchy answers about it. -/
theorem classified_freshMapping (hdistinct : g.schema.FieldsDistinct)
    (hf : f ∈ (g.schema.message m).fields) :
    g.Classified m f (g.ask (g.schema.domainName m) f.generatedName) (g.freshMapping m) :=
  classified_of_becomes (freshOutcome_becomes g m f) (tells_freshMapping hdistinct hf)

end Generator

end Mapping

/-- Failures are told apart. In every report, a field that is in use fails exactly if the schema
leaves its type without a model or its classes extend each other in a cycle. After any other failure
of the hierarchy it is mapped by its bare name, with one warning that bears the failure's code;
without a failure it is mapped as the hierarchy says. Whatever was asked before, what counts is the
answer that the source roots and the library classes give to the field alone. Fields that are not in
use are skipped. -/
theorem failures_classified (tree : FileTree) (config : Config) (schemaPath : Path)
    (only : List String) {schema : Schema} {resolver : Resolver}
    {messages : List (Fin schema.size.messages)}
    (hschema : Schema.ofFile tree schemaPath = .ok schema)
    (hresolver : config.resolver tree = .ok resolver)
    (hselected : (config.generator tree schema resolver).selected only = .ok messages) :
    ∃ report, Report.build tree config schemaPath only = .ok report ∧
      List.Forall₂ (fun m mapping => mapping.message = (schema.message m).fullName ∧
        ∀ f ∈ (schema.message m).fields,
          (config.generator tree schema resolver).Classified m f
            (resolver.resolve tree (schema.domainName m) f.generatedName) mapping)
        messages report.messages := by
  have hdistinct : schema.FieldsDistinct := Schema.fieldsDistinct_ofFile hschema
  refine ⟨_, Report.build_of_selected hschema hresolver hselected, ?_⟩
  apply List.forall₂_map_right_iff.mpr
  apply List.forall₂_same.mpr
  intro m _
  refine ⟨rfl, fun f hf => ?_⟩
  exact Mapping.Generator.classified_freshMapping
    (g := config.generator tree schema resolver) hdistinct hf

/-- A message `M` of a number `a`, and a class `M` that extends itself. -/
def ouroborosTree : FileTree where
  nodes :=
    [(["src"], .directory), (["src", "M.java"], .file "class M extends M {}".toUTF8),
      (["s.pb"],
        .file ⟨#[0x0A, 0x1B, 0x0A, 1, 0x73, 0x22, 0x0E, 0x0A, 1, 0x4D, 0x12, 9, 0x0A, 1, 0x61, 0x18,
          1, 0x20, 1, 0x28, 5, 0x62, 6, 0x70, 0x72, 0x6F, 0x74, 0x6F, 0x33]⟩)]

/-- The class `M` is met again as its own superclass. -/
theorem ouroborosTree_resolveField :
    ∃ classes, Hierarchy.resolveField ⟨[⟨"src"⟩]⟩ (Java.ClassRegistry.standard).findField
      ouroborosTree "M" "a" = .error (.cyclic classes) := by
  have hbelow : ouroborosTree.filesBelow ["src"] = [["M.java"]] :=
    List.mergeSort_of_pairwise (by decide)
  have hunder : ouroborosTree.filesUnder ⟨"src"⟩ = [⟨"src/M.java"⟩] :=
    FileTree.filesUnder_eq rfl rfl hbelow
  have hsources : SourceRoots.sources ⟨[⟨"src"⟩]⟩ ouroborosTree = [["src", "M.java"]] := by
    change (ouroborosTree.filesBelow ["src"]).map _ ++ [] = _
    rw [hbelow]
    rfl
  refine ⟨["M", "M"], ?_⟩
  simp only [Hierarchy.resolveField, SourceRoots.findClass?, List.findSome?_cons, hunder,
    Hierarchy.chain, hsources]
  decide +kernel

theorem failures_classified_ouroboros :
    ∃ report mapping, Report.build ouroborosTree { sourceRoots := [⟨"src"⟩] } ⟨"s.pb"⟩ [] =
      .ok report ∧ report.messages = [mapping] ∧ mapping.Fails "a" := by
  have hshape : (Schema.ofFile ouroborosTree ⟨"s.pb"⟩).toOption.map (fun s =>
      (s.ownMessages.filter fun m => !(s.message m).isMapEntry).map fun m =>
        (s.domainName m, (s.message m).fields.map fun f =>
          (f.declaredName, f.generatedName, f.options.unused))) =
      some [("M", [("a", "a", false)])] := by
    decide +kernel
  obtain ⟨schema, hschema, hshape⟩ := Option.map_eq_some_iff.mp hshape
  replace hschema := ok_of_toOption hschema
  obtain ⟨m, hmessages, hm⟩ := List.map_eq_singleton_iff.mp hshape
  obtain ⟨hdomain, hfields⟩ := Prod.mk.inj hm
  obtain ⟨f, hf, hnames⟩ := List.map_eq_singleton_iff.mp hfields
  obtain ⟨hdeclared, hnames⟩ := Prod.mk.inj hnames
  obtain ⟨hgenerated, hused⟩ := Prod.mk.inj hnames
  have hselected : (Config.generator { sourceRoots := [⟨"src"⟩] } ouroborosTree schema
      ⟨⟨[⟨"src"⟩]⟩, .standard⟩).selected [] = .ok [m] := congrArg Except.ok hmessages
  obtain ⟨report, hreport, hclassified⟩ := failures_classified ouroborosTree
    { sourceRoots := [⟨"src"⟩] } ⟨"s.pb"⟩ [] hschema rfl hselected
  obtain ⟨mapping, rest, ⟨-, hmapping⟩, hrest, hlist⟩ :=
    List.forall₂_cons_left_iff.mp hclassified
  rw [List.forall₂_nil_left_iff.mp hrest] at hlist
  have hfails := (hmapping f (hf ▸ List.mem_singleton_self f)).failed hused
  rw [hdomain, hgenerated, hdeclared] at hfails
  exact ⟨report, mapping, hreport, hlist, hfails.mpr (Or.inr ouroborosTree_resolveField)⟩

end WireMapper
