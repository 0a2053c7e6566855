import WireMapper.Protobuf.ScalarType

/-!
Schema files as they stand in a descriptor set: names are not resolved and nothing is checked yet.
What is not set reads as its default. Options are kept as records, since what they mean depends on
what the set declares.
-/

namespace WireMapper.Protobuf

inductive Dialect where
  | proto2
  | proto3
deriving DecidableEq, Repr

/-- A part of the name of an option: a field, or an extension if it was written in parentheses. -/
structure NamePart where
  text : String
  isExtension : Bool
deriving DecidableEq, Repr

structure UninterpretedOption where
  name : List NamePart
  identifier? : Option String
  /-- An integer, of whatever sign. -/
  integer? : Option Int
  hasDouble : Bool
  string? : Option (List UInt8)
deriving DecidableEq, Repr

structure Options where
  records : List Record
  uninterpreted : List UninterpretedOption
deriving DecidableEq, Repr

inductive DeclaredType where
  | scalar (type : ScalarType)
  /-- A message or an enum; what the name stands for says which. -/
  | named (name : String)
deriving DecidableEq, Repr

inductive Label where
  | optional
  | required
  | repeated
deriving DecidableEq, Repr

structure FieldDecl where
  name : String
  number : Int
  label : Label
  type : DeclaredType
  /-- The messages that the field holds are written as groups. -/
  isGroup : Bool
  default? : Option String
  jsonName? : Option String
  oneofIndex? : Option Int
  proto3Optional : Bool
  /-- The message that an extension adds a field to. -/
  extendee? : Option String
  options : Options
deriving Repr

structure OneofDecl where
  name : String
  options : Options
deriving Repr

structure EnumValueDecl where
  name : String
  number : Int
  options : Options
deriving DecidableEq, Repr

/-- Numbers from `start` up to `stop`. Among field numbers `stop` is not one of them, among the
numbers of enum values it is. -/
structure NumberRange where
  start : Int
  stop : Int
deriving DecidableEq, Repr

structure EnumDecl where
  name : String
  values : List EnumValueDecl
  reservedRanges : List NumberRange
  /-- Two values may have the same number. -/
  allowAlias : Bool
  options : Options
deriving DecidableEq, Repr

structure ExtensionRangeDecl where
  range : NumberRange
  options : Options
deriving Repr

structure MessageDecl where
  name : String
  fields : List FieldDecl
  extensions : List FieldDecl
  nested : List MessageDecl
  enums : List EnumDecl
  extensionRanges : List ExtensionRangeDecl
  reservedRanges : List NumberRange
  oneofs : List OneofDecl
  isMapEntry : Bool
  options : Options
deriving Repr

structure MethodDecl where
  name : String
  input : String
  output : String
  options : Options
deriving DecidableEq, Repr

structure ServiceDecl where
  name : String
  methods : List MethodDecl
  options : Options
deriving DecidableEq, Repr

structure FileDecl where
  name : String
  package : String
  /-- The names of the files that are imported. -/
  dependencies : List String
  /-- The positions of the imports that importing files see too. -/
  publicDependencies : List Int
  /-- The positions of the imports that may be missing when programs are made. -/
  weakDependencies : List Int
  messages : List MessageDecl
  enums : List EnumDecl
  services : List ServiceDecl
  extensions : List FieldDecl
  options : Options
  /-- The language version that the file names. -/
  version? : Option String
deriving Repr

/-- The dialect of a file that names the version; a file that names none is of the older one. -/
def Dialect.ofVersion? : Option String → Option Dialect
  | none | some "proto2" => some proto2
  | some "proto3" => some proto3
  | _ => none

/-- The label with a number; what is no label's number counts as optional. -/
def Label.ofNumber : Option Int → Label
  | some 2 => required
  | some 3 => repeated
  | _ => optional

def groupTypeNumber : Int := 10

/-- The type with a number and a name. A name decides alone. Without one, the numbers of messages,
groups and enums lead nowhere, and a number that is none of a type is taken for the first one. -/
def DeclaredType.of (number? : Option Int) (name : String) : DeclaredType :=
  if name ≠ "" then named name
  else
    match number? with
    | none => scalar .double
    | some number =>
      if number = groupTypeNumber ∨ number = 11 ∨ number = 14 then named ""
      else scalar ((ScalarType.ofNumber? number).getD .double)

end WireMapper.Protobuf
