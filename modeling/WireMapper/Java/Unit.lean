import WireMapper.Java.Visibility
import WireMapper.Text.Pieces

/-!
Java compilation units reduced to what decides how a field is reached: the package, the imports, and
for every type its name, its superclass and the visibility of its fields. Methods, bodies, type
arguments and annotations leave no trace.
-/

namespace WireMapper.Java

inductive TypeKind where
  | class_
  | interface
  | enum
  | record
  | annotationType
deriving DecidableEq, Repr

def TypeKind.name : TypeKind → String
  | class_ => "Class"
  | interface => "Interface"
  | enum => "Enum"
  | record => "Record"
  | annotationType => "Annotation"

/-- An import. The path leaves out the star of an import on demand. -/
structure Import where
  path : String
  isStatic : Bool
  isWildcard : Bool
deriving DecidableEq, Repr

/-- The simple name a single-type import binds. -/
def Import.simpleName? (i : Import) : Option String :=
  if i.isWildcard || i.isStatic then none else (Text.split '.' i.path).getLast?

/-- A declared field. A record component is a private field. -/
structure FieldDecl where
  name : String
  visibility : Visibility
  isStatic : Bool
deriving DecidableEq, Repr

/-- A type declaration with the types nested in it. Only classes name a superclass. -/
structure TypeDecl where
  name : String
  kind : TypeKind
  superclass? : Option String
  fields : List FieldDecl
  nested : List TypeDecl
deriving Repr

def TypeDecl.field? (t : TypeDecl) (name : String) : Option FieldDecl :=
  t.fields.find? (·.name = name)

structure CompilationUnit where
  package? : Option String
  imports : List Import
  types : List TypeDecl
deriving Repr

namespace CompilationUnit

def type? (unit : CompilationUnit) (name : String) : Option TypeDecl :=
  unit.types.find? (·.name = name)

/-- The path of the first single-type import that binds a simple name. -/
def import? (unit : CompilationUnit) (simple : String) : Option String :=
  (unit.imports.find? (·.simpleName? = some simple)).map (·.path)

def qualify (unit : CompilationUnit) (simple : String) : String :=
  match unit.package? with
  | some package => package ++ "." ++ simple
  | none => simple

end CompilationUnit

end WireMapper.Java
