import Mathlib.Algebra.GroupWithZero.Nat
import Mathlib.Algebra.Order.BigOperators.Group.List
import Mathlib.Algebra.Order.Group.Nat
import WireMapper.CommandLine.Run
import WireMapper.Proofs.Mapping.Message

/-!
The totals of a report and the exit code of the run that makes it. Since each mapping accounts for
the fields of its message, the totals add up to the number of fields, and a run fails exactly if a
field that is in use was not mapped.
-/

namespace WireMapper

open Hierarchy (Resolver)
open Mapping (MessageMapping Accounted LeavesOut)

namespace Summary

variable (mappings : List MessageMapping)

theorem fields_ofMessages :
    (ofMessages mappings).fields = (mappings.map (·.fields.length)).sum :=
  List.length_flatMap

theorem skipped_ofMessages :
    (ofMessages mappings).skipped = (mappings.map (·.skipped.length)).sum :=
  List.length_flatMap

theorem warnings_ofMessages :
    (ofMessages mappings).warnings = (mappings.map (·.warnings.length)).sum :=
  (congrArg List.length List.filter_flatMap).trans List.length_flatMap

theorem errors_ofMessages :
    (ofMessages mappings).errors = (mappings.map (·.errors.length)).sum :=
  (congrArg List.length List.filter_flatMap).trans List.length_flatMap

theorem accessors_le_fields : (ofMessages mappings).accessors ≤ (ofMessages mappings).fields :=
  List.length_filter_le _ _

theorem warnings_le_fields : (ofMessages mappings).warnings ≤ (ofMessages mappings).fields := by
  rw [warnings_ofMessages, fields_ofMessages]
  refine List.sum_le_sum fun m _ => ?_
  have hwarnings := congrArg List.length m.warnings_field
  rw [List.length_map, List.length_map] at hwarnings
  rw [hwarnings]
  exact List.length_filter_le _ _

variable {mappings} {s : Schema} {messages : List (Fin s.size.messages)}

/-- Each field is counted once. -/
theorem total_ofMessages (h : List.Forall₂ (Accounted s) messages mappings) :
    (ofMessages mappings).fields + (ofMessages mappings).skipped + (ofMessages mappings).errors =
      (messages.map fun m => (s.message m).fields.length).sum := by
  rw [fields_ofMessages, skipped_ofMessages, errors_ofMessages]
  induction h with
  | nil => rfl
  | cons hfirst _ ih =>
      have hlength := hfirst.length
      simp only [List.map_cons, List.sum_cons]
      omega

/-- A report has errors exactly if some message leaves a field out that is in use. -/
theorem errors_ne_zero_iff (h : List.Forall₂ (Accounted s) messages mappings) :
    (ofMessages mappings).errors ≠ 0 ↔
      ∃ pair ∈ messages.zip mappings, LeavesOut s pair.1 pair.2 := by
  rw [errors_ofMessages]
  induction h with
  | nil => simp
  | @cons m mapping messages mappings hfirst _ ih =>
      have hsum : mapping.errors.length + (mappings.map (·.errors.length)).sum ≠ 0 ↔
          mapping.errors ≠ [] ∨ (mappings.map (·.errors.length)).sum ≠ 0 := by
        rw [Ne, Nat.add_eq_zero_iff, List.length_eq_zero_iff, not_and_or]
      rw [List.map_cons, List.sum_cons, hsum, hfirst.errors_ne_nil_iff, ih]
      simp

end Summary

section

variable {tree : FileTree} {config : Config} {schemaPath : Path} {only : List String}

/-- A report is made once the schema, the library classes and the messages to be mapped are there,
and accounts for the fields of each message. -/
theorem Report.build_accounted {schema : Schema} {resolver : Resolver}
    {messages : List (Fin schema.size.messages)}
    (hschema : Schema.ofFile tree schemaPath = .ok schema)
    (hresolver : config.resolver tree = .ok resolver)
    (hselected : (config.generator tree schema resolver).selected only = .ok messages) :
    ∃ report, Report.build tree config schemaPath only = .ok report ∧
      List.Forall₂ (Accounted schema) messages report.messages := by
  let generator := config.generator tree schema resolver
  have haccounted : List.Forall₂ (Accounted schema) messages
      (generator.mapMessages messages Hierarchy.Cache.empty).1 :=
    generator.mapMessages_accounted (Schema.fieldsDistinct_ofFile hschema) messages
  refine ⟨⟨schemaPath, config.sourceRoots, _⟩, ?_, haccounted⟩
  refine bind_eq_ok.mpr ⟨schema, hschema, bind_eq_ok.mpr ⟨resolver, hresolver, ?_⟩⟩
  exact bind_eq_ok.mpr ⟨messages, hselected, rfl⟩

/-- A run that has its report and gets it to where it goes does not fail but for errors in the
report. -/
theorem CommandLine.run_generate {report : Report} {settings : Settings}
    {format? : Option OutputFormat} {output? : Option Path}
    (hconfig : settings.load tree = .ok config) (hvalid : config.fault? = none)
    (hreport : Report.build tree config schemaPath only = .ok report)
    (houtput : ∀ path ∈ output?, ∃ after, tree.write path
      (report.render (format?.getD config.output.format) ++ "\n").toUTF8 = .ok after) :
    let outcome := Command.run tree (.generate schemaPath settings format? output? only)
    outcome.failure? = none ∧ outcome.exitCode = if report.hasErrors then 1 else 0 := by
  have hrun : Command.run tree (.generate schemaPath settings format? output? only) =
      .ofExcept (deliver tree output? report (format?.getD config.output.format)) := by
    simp only [Command.run, Command.settings, hconfig, runGenerate, validated, hvalid,
      hreport, bind, Except.bind]
  dsimp only
  rw [hrun]
  cases output? with
  | none => exact ⟨rfl, rfl⟩
  | some path =>
      obtain ⟨after, hafter⟩ := houtput path rfl
      rw [deliver]
      simp only [hafter]
      exact ⟨rfl, rfl⟩

/-- Every field is accounted for. Each field of each message that is mapped stands in the report
exactly once, so the totals add up to the number of fields. A run that has all it needs fails
exactly if a field that is in use was not mapped. -/
theorem every_field_accounted (tree : FileTree) (config : Config) (schemaPath : Path)
    (only : List String) {schema : Schema} {resolver : Resolver}
    {messages : List (Fin schema.size.messages)}
    (hschema : Schema.ofFile tree schemaPath = .ok schema)
    (hresolver : config.resolver tree = .ok resolver)
    (hselected : (config.generator tree schema resolver).selected only = .ok messages) :
    ∃ report, Report.build tree config schemaPath only = .ok report ∧
      List.Forall₂ (Accounted schema) messages report.messages ∧
      report.summary.fields + report.summary.skipped + report.summary.errors =
        (messages.map fun m => (schema.message m).fields.length).sum ∧
      report.summary.warnings ≤ report.summary.fields ∧
      report.summary.accessors ≤ report.summary.fields ∧
      ∀ settings format? output?, settings.load tree = .ok config → config.fault? = none →
        (∀ path ∈ output?, ∃ after, tree.write path
          (report.render (format?.getD config.output.format) ++ "\n").toUTF8 = .ok after) →
        let outcome := CommandLine.Command.run tree
          (.generate schemaPath settings format? output? only)
        outcome.failure? = none ∧
          (outcome.exitCode ≠ 0 ↔
            ∃ pair ∈ messages.zip report.messages, LeavesOut schema pair.1 pair.2) := by
  obtain ⟨report, hreport, haccounted⟩ := Report.build_accounted hschema hresolver hselected
  refine ⟨report, hreport, haccounted, Summary.total_ofMessages haccounted,
    Summary.warnings_le_fields _, Summary.accessors_le_fields _, ?_⟩
  intro settings format? output? hconfig hvalid houtput
  obtain ⟨hfailure, hexit⟩ := CommandLine.run_generate hconfig hvalid hreport houtput
  refine ⟨hfailure, ?_⟩
  rw [hexit, ← Summary.errors_ne_zero_iff haccounted]
  have herrors : report.hasErrors = true ↔ (Summary.ofMessages report.messages).errors ≠ 0 :=
    decide_eq_true_iff
  rw [← herrors]
  cases report.hasErrors <;> simp

end

/-- A descriptor set with a message `M` of a number `a` and a map `b` whose entries have no key. -/
def keylessTree : FileTree :=
  { nodes :=
    [(["s.pb"], .file ⟨#[0x0A, 0x35, 0x0A, 1, 0x73, 0x22, 0x28, 0x0A, 1, 0x4D, 0x12, 9, 0x0A, 1,
      0x61, 0x18, 1, 0x20, 1, 0x28, 5, 0x12, 0x0F, 0x0A, 1, 0x62, 0x18, 2, 0x20, 3, 0x28,
      0x0B, 0x32, 4, 0x2E, 0x4D, 0x2E, 0x45, 0x1A, 7, 0x0A, 1, 0x45, 0x3A, 2, 0x38, 1, 0x62, 6,
      0x70, 0x72, 0x6F, 0x74, 0x6F, 0x33]⟩)] }

theorem every_field_accounted_keyless :
    ∃ schema messages report, Schema.ofFile keylessTree ⟨"s.pb"⟩ = .ok schema ∧
      messages.length = 1 ∧
      Report.build keylessTree { sourceRoots := [⟨"src"⟩] } ⟨"s.pb"⟩ [] = .ok report ∧
      List.Forall₂ (Accounted schema) messages report.messages ∧
      (CommandLine.Command.run keylessTree
        (.generate ⟨"s.pb"⟩ { roots := [⟨"src"⟩] } none none [])).failure? = none := by
  have hone : ((Schema.ofFile keylessTree ⟨"s.pb"⟩).toOption.map fun s =>
      (s.ownMessages.filter fun m => !(s.message m).isMapEntry).length) = some 1 := by
    decide +kernel
  cases hschema : Schema.ofFile keylessTree ⟨"s.pb"⟩ with
  | error failure =>
      rw [hschema] at hone
      cases hone
  | ok schema =>
      rw [hschema] at hone
      obtain ⟨report, hreport, haccounted, -, -, -, hrun⟩ :=
        every_field_accounted keylessTree { sourceRoots := [⟨"src"⟩] } ⟨"s.pb"⟩ [] hschema rfl rfl
      have hexit := hrun { roots := [⟨"src"⟩] } none none rfl (by decide +kernel) (by simp)
      exact ⟨schema, _, report, rfl, Option.some.inj hone, hreport, haccounted, hexit.1⟩

end WireMapper
