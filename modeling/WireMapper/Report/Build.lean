import WireMapper.Failure
import WireMapper.Hierarchy.Resolve
import WireMapper.Java.ClassRegistry.Document
import WireMapper.Report.Basic
import WireMapper.Schema.Link

/-!
Making a report from a schema file and a configuration.
-/

namespace WireMapper

open Hierarchy (Cache Resolver)
open Java (ClassRegistry)
open Mapping (Generator)

/-- The library classes that a configuration adds to those of the standard library. -/
def Config.classes (config : Config) (tree : FileTree) : Except Failure ClassRegistry :=
  match config.runtimeClasses with
  | none => .ok .standard
  | some path =>
    match ClassRegistry.standard.loadFile tree path with
    | (.ok _, registry) => .ok registry
    | (.error e, _) => .error (.classesNotLoaded path e)

def Config.resolver (config : Config) (tree : FileTree) : Except Failure Resolver :=
  return ⟨⟨config.sourceRoots⟩, ← config.classes tree⟩

def Schema.ofFile (tree : FileTree) (path : Path) : Except Failure Schema :=
  match tree.readBytes path with
  | .error cause => .error (.schemaNotLoaded path (.unreadable cause))
  | .ok bytes =>
    match Schema.decode bytes with
    | .error e => .error (.schemaNotLoaded path (.malformed e))
    | .ok schema => .ok schema

def Config.generator (config : Config) (tree : FileTree) (schema : Schema) (resolver : Resolver) :
    Generator :=
  { schema
    ask := resolver.resolve tree
    policy := .perFile config.annotateByDefault
    builderName := config.output.builderName
    wireParameter := config.output.wireParameter }

/-- The messages with the given full names, or all that are mapped by default if none is given. -/
def Mapping.Generator.selected (g : Generator) (only : List String) :
    Except Failure (List (Fin g.schema.size.messages)) :=
  if only.isEmpty then .ok g.allMessages
  else
    only.mapM fun name =>
      match g.schema.message? name with
      | some m => .ok m
      | none => .error (.unknownMessage name)

def Report.build (tree : FileTree) (config : Config) (schemaPath : Path) (only : List String) :
    Except Failure Report := do
  let schema ← Schema.ofFile tree schemaPath
  let resolver ← config.resolver tree
  let generator := config.generator tree schema resolver
  let messages ← generator.selected only
  return ⟨schemaPath, config.sourceRoots, (generator.mapMessages messages Cache.empty).1⟩

end WireMapper
