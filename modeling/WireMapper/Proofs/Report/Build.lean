import WireMapper.Proofs.Except
import WireMapper.Proofs.Mapping.Cache
import WireMapper.Report.Build

/-!
What a report is made of. It holds the mappings of the selected messages, each as if it were made
alone: the cache that they share starts empty, and the files stay as they are.
-/

namespace WireMapper

open Hierarchy (Cache Resolver)
open Mapping (Generator)

namespace Mapping.Generator

variable {g : Generator} {only : List String} {messages : List (Fin g.schema.size.messages)}

/-- Messages that are named are looked up one by one, in the order of their names. -/
theorem selected_eq_ok (honly : only ≠ []) :
    g.selected only = .ok messages ↔
      List.Forall₂ (fun name m => g.schema.message? name = some m) only messages := by
  have hnamed : ¬only.isEmpty = true := by
    rw [List.isEmpty_iff]
    exact honly
  rw [selected, if_neg hnamed, mapM_eq_ok]
  constructor
  · refine List.Forall₂.imp fun name m hlookup => ?_
    split at hlookup
    · rename_i found hfound
      rw [hfound, Except.ok.inj hlookup]
    · cases hlookup
  · refine List.Forall₂.imp fun name m hlookup => ?_
    simp only [hlookup]

end Mapping.Generator

namespace Report

variable {tree : FileTree} {config : Config} {schemaPath : Path} {only : List String}

/-- With a schema, library classes and messages there is a report, each message mapped by itself. -/
theorem build_of_selected {schema : Schema} {resolver : Resolver}
    {messages : List (Fin schema.size.messages)}
    (hschema : Schema.ofFile tree schemaPath = .ok schema)
    (hresolver : config.resolver tree = .ok resolver)
    (hselected : (config.generator tree schema resolver).selected only = .ok messages) :
    build tree config schemaPath only =
      .ok ⟨schemaPath, config.sourceRoots,
        messages.map (config.generator tree schema resolver).freshMapping⟩ := by
  rw [← Generator.mapMessages_of_agrees (g := config.generator tree schema resolver)
    Cache.agrees_empty messages]
  refine bind_eq_ok.mpr ⟨schema, hschema, bind_eq_ok.mpr ⟨resolver, hresolver, ?_⟩⟩
  exact bind_eq_ok.mpr ⟨messages, hselected, rfl⟩

/-- A report has its schema, its library classes and its messages. -/
theorem exists_of_build {report : Report} (h : build tree config schemaPath only = .ok report) :
    ∃ schema resolver, Schema.ofFile tree schemaPath = .ok schema ∧
      config.resolver tree = .ok resolver ∧
      ∃ messages, (config.generator tree schema resolver).selected only = .ok messages ∧
        report.messages =
          messages.map (config.generator tree schema resolver).freshMapping := by
  have hreport := h
  obtain ⟨schema, hschema, h⟩ := bind_eq_ok.mp h
  obtain ⟨resolver, hresolver, h⟩ := bind_eq_ok.mp h
  obtain ⟨messages, hselected, -⟩ := bind_eq_ok.mp h
  refine ⟨schema, resolver, hschema, hresolver, messages, hselected, ?_⟩
  rw [build_of_selected hschema hresolver hselected] at hreport
  rw [← Except.ok.inj hreport]

end Report

end WireMapper
