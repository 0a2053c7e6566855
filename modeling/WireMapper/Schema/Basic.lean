import WireMapper.Naming
import WireMapper.Protobuf.Declaration
import WireMapper.RepeatedContainer
import WireMapper.TypeModel
import WireMapper.Unvisited

/-!
A schema whose names are resolved. Messages and enums are known by their positions, so a field's
type always leads somewhere, also where messages refer to each other in circles.
-/

namespace WireMapper

open Protobuf (Dialect Label)

structure SchemaSize where
  files : Nat
  messages : Nat
  enums : Nat
deriving DecidableEq, Repr

inductive FieldType (size : SchemaSize) where
  | scalar (scalar : Scalar)
  | enum (position : Fin size.enums)
  | message (position : Fin size.messages)
deriving DecidableEq, Repr

def FieldType.kindName {size : SchemaSize} : FieldType size → String
  | scalar .int => "INT"
  | scalar .long => "LONG"
  | scalar .float => "FLOAT"
  | scalar .double => "DOUBLE"
  | scalar .boolean => "BOOLEAN"
  | scalar .string => "STRING"
  | scalar .byteString => "BYTE_STRING"
  | enum _ => "ENUM"
  | message _ => "MESSAGE"

structure Oneof where
  name : String
  /-- The group stands for a single field that is declared optional. -/
  isSynthetic : Bool
deriving DecidableEq, Repr

structure FieldOptions where
  name? : Option String
  container : RepeatedContainer
  unused : Bool
deriving DecidableEq, Repr

structure Field (size : SchemaSize) where
  /-- The name as it is declared. -/
  declaredName : String
  fullName : String
  number : Int
  label : Label
  type : FieldType size
  dialect : Dialect
  /-- Declared with the word `optional` in the newer dialect. -/
  proto3Optional : Bool
  oneof? : Option Oneof
  options : FieldOptions
deriving DecidableEq, Repr

namespace Field

variable {size : SchemaSize}

/-- The name on the wire class, which lacks a leading underscore. -/
def name (f : Field size) : String :=
  Naming.dropUnderscore f.declaredName

def generatedName (f : Field size) : String :=
  Naming.dropUnderscore (f.options.name?.getD f.declaredName)

def hadUnderscore (f : Field size) : Bool :=
  f.declaredName.toList.head? = some '_'

def getter (f : Field size) : String :=
  Naming.getter f.generatedName

def setter (f : Field size) : String :=
  Naming.setter f.generatedName

def isRepeated (f : Field size) : Bool :=
  f.label = .repeated

/-- Declared to be optional. A member of a oneof is not, unless the group stands for it alone. -/
def isOptional (f : Field size) : Bool :=
  f.proto3Optional || (f.dialect = .proto2 && f.label = .optional && f.oneof?.isNone)

/-- The group that the schema declares around the field. -/
def oneofName? (f : Field size) : Option String :=
  (f.oneof?.filter (!·.isSynthetic)).map (·.name)

def inOneof (f : Field size) : Bool :=
  f.oneofName?.isSome

def canBeAbsent (f : Field size) : Bool :=
  f.isOptional || f.inOneof

end Field

structure Message (size : SchemaSize) where
  name : String
  fullName : String
  file : Fin size.files
  /-- The full name of the message around it. -/
  container? : Option String
  /-- The names of the messages around it, outermost first. -/
  outer : List String
  /-- The fields by ascending number. -/
  fields : List (Field size)
  oneofs : List Oneof
  /-- The message stands for the entries of a map field. -/
  isMapEntry : Bool
deriving Repr

def nestedName (outer : List String) (name : String) : String :=
  Text.join '.' (outer ++ [name])

namespace Message

variable {size : SchemaSize}

def javaName (m : Message size) : String :=
  nestedName m.outer m.name

def field? (m : Message size) (name : String) : Option (Field size) :=
  m.fields.find? (·.declaredName = name)

def oneofNames (m : Message size) : List String :=
  (m.oneofs.filter (!·.isSynthetic)).map (·.name)

/-- The only field of a message that is a wrapper around it. Map entries are no wrappers. -/
def wrapped? (m : Message size) : Option (Field size) :=
  if m.isMapEntry then none
  else
    match m.fields with
    | [field] => some field
    | _ => none

end Message

structure EnumType (size : SchemaSize) where
  name : String
  fullName : String
  file : Fin size.files
  outer : List String
  /-- The values by ascending number. -/
  values : List (String × Int)
deriving Repr

def EnumType.javaName {size : SchemaSize} (e : EnumType size) : String :=
  nestedName e.outer e.name

structure SchemaFile where
  name : String
  package : String
  dialect : Dialect
  /-- What wire classes have in front of the names of their domain classes. -/
  domainPrefix : String
  /-- Whether nullability is marked, where the file says so. -/
  annotations? : Option Bool
deriving DecidableEq, Repr

/-- Files that only declare what schemas are written with. -/
def SchemaFile.isSupport (f : SchemaFile) : Bool :=
  f.package = "google.protobuf" || f.name = "protomap/options.proto"

/-- A name without a prefix that it starts with; what is left must not be empty. -/
def withoutPrefix (start name : String) : String :=
  if start ≠ "" ∧ name ≠ start ∧ start.toList.isPrefixOf name.toList then
    String.ofList (name.toList.drop start.length)
  else
    name

structure Schema where
  size : SchemaSize
  files : Vector SchemaFile size.files
  /-- The messages of each file in turn, each before the messages inside it. -/
  messages : Vector (Message size) size.messages
  enums : Vector (EnumType size) size.enums

namespace Schema

variable (s : Schema)

def file (i : Fin s.size.files) : SchemaFile :=
  s.files.get i

def message (m : Fin s.size.messages) : Message s.size :=
  s.messages.get m

def enum (e : Fin s.size.enums) : EnumType s.size :=
  s.enums.get e

def fileOf (m : Fin s.size.messages) : SchemaFile :=
  s.file (s.message m).file

def ownFiles : List (Fin s.size.files) :=
  (List.finRange s.size.files).filter fun i => !(s.file i).isSupport

def ownMessages : List (Fin s.size.messages) :=
  (List.finRange s.size.messages).filter fun i => !(s.fileOf i).isSupport

def topMessages (file : Fin s.size.files) : List (Fin s.size.messages) :=
  (List.finRange s.size.messages).filter fun i =>
    (s.message i).file = file && (s.message i).container?.isNone

/-- A full name without the dots before it. -/
def bareName (name : String) : String :=
  String.ofList (name.toList.dropWhile (· = '.'))

def message? (name : String) : Option (Fin s.size.messages) :=
  (List.finRange s.size.messages).find? fun i => (s.message i).fullName = bareName name

def enum? (name : String) : Option (Fin s.size.enums) :=
  (List.finRange s.size.enums).find? fun i => (s.enum i).fullName = bareName name

def domainName (m : Fin s.size.messages) : String :=
  withoutPrefix (s.fileOf m).domainPrefix (s.message m).name

def enumDomainName (e : Fin s.size.enums) : String :=
  withoutPrefix (s.file (s.enum e).file).domainPrefix (s.enum e).name

def target? (f : Field s.size) : Option (Fin s.size.messages) :=
  match f.type with
  | .message m => some m
  | _ => none

/-- A repeated field whose elements are map entries. -/
def isMap (f : Field s.size) : Bool :=
  f.isRepeated && (s.target? f).any fun m => (s.message m).isMapEntry

/-- A repeated field that is no map. -/
def isList (f : Field s.size) : Bool :=
  f.isRepeated && !s.isMap f

end Schema

end WireMapper
