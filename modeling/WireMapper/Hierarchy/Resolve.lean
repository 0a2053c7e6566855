import WireMapper.Hierarchy.Chain
import WireMapper.Hierarchy.Resolution
import WireMapper.Java.ClassRegistry

/-!
Deciding how a class reaches one of its fields. The nearest declaration on the superclass chain
decides; where the chain leaves source code, library classes take over.
-/

namespace WireMapper.Hierarchy

open Java (ClassRegistry CompilationUnit)

/-- The full names a superclass named in a unit may have outside the source roots, in the order in
which they are tried: as imported, as written, in the unit's package, and in the packages imported
on demand. -/
def libraryCandidates (unit : CompilationUnit) (superclass : String) : List String :=
  let imported := (unit.import? superclass).toList
  let packages :=
    unit.package?.toList ++
      (unit.imports.filter fun i => i.isWildcard && !i.isStatic).map (·.path)
  let qualified :=
    if '.' ∈ superclass.toList then [] else packages.map (· ++ "." ++ superclass)
  imported ++ superclass :: qualified

/-- What is known about the fields of library classes: the outcome of looking for a field, the
second name, from a class on, the first name. A registry gives such answers, and so does anything
else that can load classes. -/
abbrev LibraryLookup := String → String → ClassRegistry.Lookup

/-- Where a library class declares a field. The first candidate that is known decides, also if it
lacks the field. -/
def libraryOrigin (libraries : LibraryLookup) (unit : CompilationUnit)
    (superclass field : String) : Origin :=
  let lookups := (libraryCandidates unit superclass).map (libraries · field)
  match lookups.find? (· ≠ .unloadable) with
  | some (.declared className visibility) => .library className visibility
  | _ => .unresolved

def Link.origin? (link : Link) (field : String) : Option Origin :=
  (link.decl.field? field).map fun f =>
    .source (link.unit.qualify link.decl.name) link.path f.visibility

def endOrigin (libraries : LibraryLookup) (links : List Link) (field : String) :
    ChainEnd → Except Error Origin
  | .top => .ok .unresolved
  | .failed e => .error e
  | .outside superclass =>
    match links.getLast? with
    | some link => .ok (libraryOrigin libraries link.unit superclass field)
    | none => .ok .unresolved

/-- Where a field is declared, seen from the class that a chain starts with. -/
def chainOrigin (libraries : LibraryLookup) (field : String) :
    List Link × ChainEnd → Except Error Origin
  | ([], fin) => endOrigin libraries [] field fin
  | (first :: above, fin) =>
    if (first.decl.field? field).isSome then .ok (.own first.path)
    else
      match above.findSome? (·.origin? field) with
      | some origin => .ok origin
      | none => endOrigin libraries (first :: above) field fin

/-- Decides how a class reaches one of its fields, given the source roots, what is known about
library classes, and the files. -/
def resolveField (roots : SourceRoots) (libraries : LibraryLookup) (tree : FileTree)
    (className field : String) : Except Error Resolution :=
  match roots.findClass? tree className with
  | none => .error (.notFound className)
  | some file =>
    match chainOrigin libraries field (chain roots tree file className) with
    | .error e => .error e
    | .ok origin => .ok ⟨className, field, origin⟩

structure Resolver where
  roots : SourceRoots
  registry : ClassRegistry

def Resolver.resolve (r : Resolver) (tree : FileTree) (className field : String) :
    Except Error Resolution :=
  resolveField r.roots r.registry.findField tree className field

end WireMapper.Hierarchy
