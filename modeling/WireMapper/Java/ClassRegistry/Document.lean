import WireMapper.Hierarchy.Error
import WireMapper.Java.ClassRegistry
import WireMapper.Text.WhiteSpace
import WireMapper.Toml.Decode
import WireMapper.Toml.Document

/-!
Library classes described in TOML: an array `class` of tables with a name and, where it has them, a
superclass and fields. Classes are registered in the order of the document.
-/

namespace WireMapper.Java

open WireMapper.Toml (Fault Value)

def Visibility.decode (value : Value) : Except Fault Visibility := do
  let name ← value.asName
  match Visibility.ofName? name with
  | some visibility => return visibility
  | none => .error (.unknownName name)

def LibraryField.decode (value : Value) : Except Fault LibraryField := do
  return {
    name := ← value.requiredField 0 "name" Value.asString
    visibility := ← value.requiredField 1 "visibility" Visibility.decode }

def LibraryClass.decode (value : Value) : Except Fault LibraryClass := do
  return {
    name := ← value.requiredField 0 "name" Value.asString
    superclass? := ← value.fieldOr 1 "superclass" (fun s => s.asString.map some) none
    fields := ← value.fieldOr 2 "fields" (fun fs => do (← fs.asArray).mapM LibraryField.decode) [] }

namespace ClassRegistry

def decodeClasses (document : Value) : Except Fault (List LibraryClass) :=
  document.fieldOr 0 "class" (fun cs => do (← cs.asArray).mapM LibraryClass.decode) []

/-- Registers the classes of a document and counts them. A document that cannot be read changes
nothing; one with a class without a name stops at that class. -/
def loadText (registry : ClassRegistry) (text : String) :
    Except Hierarchy.Error Nat × ClassRegistry :=
  match Toml.parse text >>= decodeClasses with
  | .error fault => (.error (.registry fault.message), registry)
  | .ok classes =>
    match registry.registerAll Text.isBlank classes with
    | (registry, true) => (.ok classes.length, registry)
    | (registry, false) => (.error (.registry "class entry with empty name"), registry)

def loadFile (registry : ClassRegistry) (tree : FileTree) (path : Path) :
    Except Hierarchy.Error Nat × ClassRegistry :=
  match tree.readText path with
  | .error cause => (.error (.unreadable path cause), registry)
  | .ok text => registry.loadText text

end ClassRegistry

end WireMapper.Java
