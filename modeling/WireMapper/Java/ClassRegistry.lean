import WireMapper.Java.Visibility
import WireMapper.Unvisited

/-!
Classes of libraries, which are known by description instead of source. A registry holds at most one
class under a name. Following superclasses through it visits each class at most once, so a
description that runs in circles has an end as well.
-/

namespace WireMapper.Java

structure LibraryField where
  name : String
  visibility : Visibility
deriving DecidableEq, Repr

/-- A library class with the fields it declares itself. -/
structure LibraryClass where
  name : String
  superclass? : Option String := none
  fields : List LibraryField := []
deriving DecidableEq, Repr

def LibraryClass.field? (c : LibraryClass) (name : String) : Option LibraryField :=
  c.fields.find? (·.name = name)

structure ClassRegistry where
  classes : List LibraryClass
deriving Repr

namespace ClassRegistry

def empty : ClassRegistry := ⟨[]⟩

def size (registry : ClassRegistry) : Nat :=
  registry.classes.length

def get? (registry : ClassRegistry) (name : String) : Option LibraryClass :=
  registry.classes.find? (·.name = name)

/-- The registry with a class in the place of the one of the same name. -/
def register (registry : ClassRegistry) (c : LibraryClass) : ClassRegistry :=
  ⟨c :: registry.classes.filter (·.name ≠ c.name)⟩

/-- The class that a name stands for: the one of exactly this name, or, for a name without dots, the
one of this name in the package that every source file imports. -/
def load? (registry : ClassRegistry) (name : String) : Option LibraryClass :=
  match registry.get? name with
  | some c => some c
  | none => if '.' ∈ name.toList then none else registry.get? ("java.lang." ++ name)

/-- A class and the superclasses reached from it, each at most once; `unvisited` holds the names
that may still be visited. -/
def ancestryFrom (registry : ClassRegistry) (unvisited : List String) (c : LibraryClass) :
    List LibraryClass :=
  if c.name ∈ unvisited then
    match c.superclass?.bind registry.load? with
    | none => [c]
    | some next => c :: ancestryFrom registry (unvisitedAfter c.name unvisited) next
  else
    []
termination_by unvisited.length
decreasing_by exact length_unvisitedAfter_lt ‹_›

def ancestry? (registry : ClassRegistry) (name : String) : Option (List LibraryClass) :=
  (registry.load? name).map (registry.ancestryFrom (registry.classes.map (·.name)))

inductive Lookup where
  /-- The registry does not know the class. -/
  | unloadable
  /-- No class of the ancestry that is known declares the field. -/
  | absent
  /-- The nearest class that declares the field, and how it does. -/
  | declared (declaringClass : String) (visibility : Visibility)
deriving DecidableEq, Repr

def findField (registry : ClassRegistry) (name field : String) : Lookup :=
  match registry.ancestry? name with
  | none => .unloadable
  | some classes =>
    match classes.findSome? fun c => (c.field? field).map (c.name, ·.visibility) with
    | none => .absent
    | some (declaringClass, visibility) => .declared declaringClass visibility

/-- Registers classes one after another up to the first without a name. Those before it stay
registered; the flag says that there was none. -/
def registerAll (registry : ClassRegistry) (isNameless : String → Bool) :
    List LibraryClass → ClassRegistry × Bool
  | [] => (registry, true)
  | c :: classes =>
    if isNameless c.name then (registry, false)
    else (registry.register c).registerAll isNameless classes

/-- Base classes of the standard library that applications often extend. -/
def standardClasses : List LibraryClass :=
  [ { name := "java.lang.Object" },
    { name := "java.lang.Number", superclass? := "java.lang.Object" },
    { name := "java.lang.Throwable", superclass? := "java.lang.Object",
      fields := [⟨"detailMessage", .private_⟩, ⟨"cause", .private_⟩, ⟨"stackTrace", .private_⟩,
        ⟨"suppressedExceptions", .private_⟩] },
    { name := "java.lang.Exception", superclass? := "java.lang.Throwable" },
    { name := "java.lang.RuntimeException", superclass? := "java.lang.Exception" },
    { name := "java.util.AbstractCollection", superclass? := "java.lang.Object" },
    { name := "java.util.AbstractList", superclass? := "java.util.AbstractCollection",
      fields := [⟨"modCount", .protected_⟩] },
    { name := "java.util.ArrayList", superclass? := "java.util.AbstractList",
      fields := [⟨"elementData", .package⟩, ⟨"size", .private_⟩] },
    { name := "java.util.AbstractMap", superclass? := "java.lang.Object",
      fields := [⟨"keySet", .package⟩, ⟨"values", .package⟩] },
    { name := "java.util.HashMap", superclass? := "java.util.AbstractMap",
      fields := [⟨"table", .package⟩, ⟨"size", .package⟩, ⟨"modCount", .package⟩] } ]

def standard : ClassRegistry :=
  standardClasses.foldl register empty

end ClassRegistry

end WireMapper.Java
