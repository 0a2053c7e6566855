import WireMapper.Java.Visibility
import WireMapper.Json
import WireMapper.Naming
import WireMapper.Path

/-!
The answer for a field of a class: where the field is declared, and so whether the class reaches it
directly or through accessors.
-/

namespace WireMapper.Hierarchy

open Java (Visibility)

inductive Origin where
  /-- In the class itself. -/
  | own (path : Path)
  /-- In the source of a superclass. -/
  | source (className : String) (path : Path) (visibility : Visibility)
  /-- In a library class. -/
  | library (className : String) (visibility : Visibility)
  /-- In no class that is known. -/
  | unresolved
deriving DecidableEq, Repr

/-- Only an inherited field that is hidden from subclasses needs accessors. -/
def Origin.needsAccessor : Origin → Bool
  | own _ | unresolved => false
  | source _ _ visibility | library _ visibility => visibility.isRestricted

def Origin.toJson : Origin → Json
  | own path => .object [("kind", .string "local"), ("path", .string path.text)]
  | source className path visibility =>
    .object [("kind", .string "source"), ("class", .string className),
      ("path", .string path.text), ("visibility", .string visibility.name)]
  | library className visibility =>
    .object [("kind", .string "runtime"), ("class", .string className),
      ("visibility", .string visibility.name)]
  | unresolved => .object [("kind", .string "unresolved")]

structure Resolution where
  className : String
  fieldName : String
  origin : Origin
deriving DecidableEq, Repr

namespace Resolution

def needsAccessor (r : Resolution) : Bool :=
  r.origin.needsAccessor

def getter (r : Resolution) : String :=
  Naming.getter r.fieldName

def setter (r : Resolution) : String :=
  Naming.setter r.fieldName

def members (r : Resolution) : List (String × Json) :=
  [("class_name", .string r.className), ("field_name", .string r.fieldName),
    ("needs_accessor", .bool r.needsAccessor), ("getter", .string r.getter),
    ("setter", .string r.setter), ("origin", r.origin.toJson)]

def toJson (r : Resolution) : Json :=
  .object r.members

end Resolution

end WireMapper.Hierarchy
