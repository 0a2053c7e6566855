import WireMapper.Error
import WireMapper.Protobuf.Declaration.Decode
import WireMapper.Protobuf.OptionValues
import WireMapper.Schema.Basic

/-!
Making a schema of the files of a descriptor set: names are resolved, the rules of the schema
language are checked, and the options that concern the domain side are read.
-/

namespace WireMapper.Schema

open Protobuf

abbrev outlineSize (o : Outline) : SchemaSize :=
  ⟨o.files.length, o.messages.length, o.enums.length⟩

/-- The Java side of a scalar type. Unsigned integers are kept in signed ones of the same width. -/
def scalarOf : ScalarType → Scalar
  | .double => .double
  | .float => .float
  | .int32 | .uint32 | .sint32 | .fixed32 | .sfixed32 => .int
  | .int64 | .uint64 | .sint64 | .fixed64 | .sfixed64 => .long
  | .bool => .boolean
  | .string => .string
  | .bytes => .byteString

def typeOf {o : Outline} : FieldKind o → FieldType (outlineSize o)
  | .scalar type => .scalar (scalarOf type)
  | .enum e => .enum e
  | .message m => .message m

structure Linking (o : Outline) where
  dialects : Vector Dialect o.files.length
  names : Names o
  typing : Typing o

namespace Linking

variable {o : Outline} (l : Linking o)

def optionValues (target : OptionTarget) (file : o.Index) (declaration : String)
    (options : Options) : Except LinkFault Fields :=
  l.typing.optionValues l.names target file declaration options

/-- The value of an option of the library: of the field with the number of the extension that has
the option's name. -/
def mapperOption? (option : String) (values : Fields) : Option TypedValue :=
  (l.typing.extensions.toList.find? (·.fullName = "protomap." ++ option)).bind fun x =>
    lastValue? values x.field.decl.number.toNat

def textOption? (option : String) (values : Fields) : Option String :=
  match l.mapperOption? option values with
  | some (.text text) => some text
  | _ => none

def flagOption? (option : String) (values : Fields) : Option Bool :=
  match l.mapperOption? option values with
  | some (.flag flag) => some flag
  | _ => none

def numberOption? (option : String) (values : Fields) : Option Int :=
  match l.mapperOption? option values with
  | some (.choice number) => some number
  | _ => none

/-- What the options of a field say. Numbers that stand for no collection are taken for lists. -/
def fieldOptions (values : Fields) : FieldOptions :=
  { name? := l.textOption? "field_name" values
    container :=
      ((l.numberOption? "repeated_container" values).bind RepeatedContainer.ofNumber?).getD .list
    unused := (l.flagOption? "unused" values).getD false }

def defaultPrefix : String := "Grpc"

def checkOptions (target : OptionTarget) (file : o.Index) (declaration : String)
    (options : Options) : Except LinkFault Unit :=
  (l.optionValues target file declaration options).map fun _ => ()

def file (i : o.Index) : Except LinkFault SchemaFile := do
  let f := o.files.get i
  let values ← l.optionValues .file i f.package f.options
  return {
    name := f.name
    package := f.package
    dialect := l.dialects.get i
    domainPrefix := (l.textOption? "domain_prefix" values).getD defaultPrefix
    annotations? := l.flagOption? "nullability_annotations" values }

/-- A oneof of a message. It is synthetic if its only field is optional in the newer dialect. -/
def oneof (m : MessageDecl) (index : Nat) (decl : OneofDecl) : Oneof :=
  { name := decl.name
    isSynthetic :=
      match m.fields.filter (·.oneofIndex? = some (index : Int)) with
      | [member] => member.proto3Optional
      | _ => false }

def field (m : Declared o.files.length MessageDecl) (oneofs : List Oneof) (f : TypedField o) :
    Except LinkFault (Field (outlineSize o)) := do
  let fullName := qualify m.fullName f.decl.name
  return {
    declaredName := f.decl.name
    fullName
    number := f.decl.number
    label := f.decl.label
    type := typeOf f.kind
    dialect := l.dialects.get m.file
    proto3Optional := f.decl.proto3Optional
    oneof? := f.decl.oneofIndex?.bind fun index => oneofs[index.toNat]?
    options := l.fieldOptions (← l.optionValues .field m.file fullName f.decl.options) }

def mapEntryNumber : Nat := 7

def saysMapEntry (values : Fields) : Bool :=
  match lastValue? values mapEntryNumber with
  | some (.flag flag) => flag
  | _ => false

/-- A message that keeps the rules of its dialect. -/
def message (position : Fin o.messages.length) : Except LinkFault (Message (outlineSize o)) := do
  let m := o.messages.get position
  m.decl.check (l.dialects.get m.file) m.fullName
  m.decl.oneofs.forM fun x =>
    l.checkOptions .oneof m.file (qualify m.fullName x.name) x.options
  m.decl.extensionRanges.forM fun x => l.checkOptions .extensionRange m.file m.fullName x.options
  let values ← l.optionValues .message m.file m.fullName m.decl.options
  let oneofs := m.decl.oneofs.mapIdx (oneof m.decl)
  let fields ← (l.typing.fields.get position).mapM (l.field m oneofs)
  return {
    name := m.decl.name
    fullName := m.fullName
    file := m.file
    container? := if m.outer.isEmpty then none else some m.scope
    outer := m.outer
    fields := fields.mergeSort fun f g => f.number ≤ g.number
    oneofs
    isMapEntry := m.decl.isMapEntry || saysMapEntry values }

def enum (e : Declared o.files.length EnumDecl) : Except LinkFault (EnumType (outlineSize o)) := do
  e.decl.check (l.dialects.get e.file) e.fullName
  l.checkOptions .enum e.file e.fullName e.decl.options
  e.decl.values.forM fun v => l.checkOptions .enumValue e.file (qualify e.scope v.name) v.options
  return {
    name := e.decl.name
    fullName := e.fullName
    file := e.file
    outer := e.outer
    values := e.decl.sortedValues.map fun v => (v.name, v.number) }

/-- Checks a service. The messages that its methods name must be there. -/
def checkService (s : Declared o.files.length ServiceDecl) : Except LinkFault Unit := do
  l.checkOptions .service s.file s.fullName s.decl.options
  s.decl.methods.forM fun method => do
    let _ ← l.names.message s.file s.fullName method.input
    let _ ← l.names.message s.file s.fullName method.output
    l.checkOptions .method s.file (qualify s.fullName method.name) method.options

def schema : Except LinkFault Schema := do
  o.extensions.forM fun x => l.checkOptions .field x.file x.fullName x.decl.options
  o.services.forM l.checkService
  return {
    size := outlineSize o
    files := ← (Vector.ofFn fun i => i).mapM l.file
    messages := ← (Vector.ofFn fun i => i).mapM l.message
    enums := ← (vectorOf o.enums).mapM l.enum }

end Linking

def dialectOf (f : FileDecl) : Except LinkFault Dialect :=
  match Dialect.ofVersion? f.version? with
  | some dialect => .ok dialect
  | none => .error (.unknownVersion f.name (f.version?.getD ""))

def ofFiles (files : List FileDecl) : Except LinkFault Schema := do
  let o := Outline.ofFiles files
  let dialects ← (vectorOf o.files).mapM dialectOf
  let names ← Names.ofOutline o
  let l : Linking o := { dialects, names, typing := ← names.typing }
  l.schema

def decode (bytes : ByteArray) : Except Error Schema :=
  match decodeFiles bytes.data.toList with
  | .error fault => .error (.serialization fault.message)
  | .ok files =>
    match ofFiles files with
    | .error fault => .error (.serialization fault.message)
    | .ok schema => .ok schema

end WireMapper.Schema
