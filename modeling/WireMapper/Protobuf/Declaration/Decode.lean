import WireMapper.Protobuf.Declaration
import WireMapper.Protobuf.Standard

/-!
Reading schema files from a binary descriptor set. The whole set is checked against its description
first; then each declaration takes its fields from its records.
-/

namespace WireMapper.Protobuf

def NamePart.decode (bytes : List UInt8) : Except WireFault NamePart := do
  let rs ← records bytes
  return { text := (← textOf? 1 rs).getD "", isExtension := (← flagOf? 2 rs).getD false }

def UninterpretedOption.decode (bytes : List UInt8) : Except WireFault UninterpretedOption := do
  let rs ← records bytes
  let positive? := (← integerOf? 4 rs).map fun n => (n : Int)
  let negative? := (← integerOf? 5 rs).map fun n => (n : Int).bmod 0x10000000000000000
  return {
    name := ← messagesOf 2 NamePart.decode rs
    identifier? := ← textOf? 3 rs
    integer? := positive?.or negative?
    hasDouble := !(valuesOf 6 rs).isEmpty
    string? := (← contentsOf 7 rs).getLast? }

def Options.decode (number : Nat) (rs : List Record) : Except WireFault Options := do
  let records ← recordsOf number rs
  return { records, uninterpreted := ← messagesOf 999 UninterpretedOption.decode records }

def FieldDecl.decode (bytes : List UInt8) : Except WireFault FieldDecl := do
  let rs ← records bytes
  let typeNumber? ← int32Of? 5 rs
  return {
    name := (← textOf? 1 rs).getD ""
    extendee? := ← textOf? 2 rs
    number := (← int32Of? 3 rs).getD 0
    label := .ofNumber (← int32Of? 4 rs)
    type := .of typeNumber? ((← textOf? 6 rs).getD "")
    isGroup := typeNumber? = some groupTypeNumber
    default? := ← textOf? 7 rs
    options := ← Options.decode 8 rs
    oneofIndex? := ← int32Of? 9 rs
    jsonName? := ← textOf? 10 rs
    proto3Optional := (← flagOf? 17 rs).getD false }

def OneofDecl.decode (bytes : List UInt8) : Except WireFault OneofDecl := do
  let rs ← records bytes
  return { name := (← textOf? 1 rs).getD "", options := ← Options.decode 2 rs }

def EnumValueDecl.decode (bytes : List UInt8) : Except WireFault EnumValueDecl := do
  let rs ← records bytes
  return {
    name := (← textOf? 1 rs).getD ""
    number := (← int32Of? 2 rs).getD 0
    options := ← Options.decode 3 rs }

def NumberRange.decode (bytes : List UInt8) : Except WireFault NumberRange := do
  let rs ← records bytes
  return { start := (← int32Of? 1 rs).getD 0, stop := (← int32Of? 2 rs).getD 0 }

def Options.asserts (options : Options) (name : String) : Bool :=
  options.uninterpreted.any fun u => u.name = [⟨name, false⟩] && u.identifier? = some "true"

def EnumDecl.decode (bytes : List UInt8) : Except WireFault EnumDecl := do
  let rs ← records bytes
  let options ← Options.decode 3 rs
  return {
    name := (← textOf? 1 rs).getD ""
    values := ← messagesOf 2 EnumValueDecl.decode rs
    reservedRanges := ← messagesOf 4 NumberRange.decode rs
    allowAlias := (← flagOf? 2 options.records).getD false || options.asserts "allow_alias"
    options }

def ExtensionRangeDecl.decode (bytes : List UInt8) : Except WireFault ExtensionRangeDecl := do
  return { range := ← NumberRange.decode bytes, options := ← Options.decode 3 (← records bytes) }

/-- Reads a message in which messages may be declared so many levels deep. -/
def MessageDecl.decode : Nat → List UInt8 → Except WireFault MessageDecl
  | 0, _ => .error .tooDeep
  | levels + 1, bytes => do
    let rs ← records bytes
    let options ← Options.decode 7 rs
    return {
      name := (← textOf? 1 rs).getD ""
      fields := ← messagesOf 2 FieldDecl.decode rs
      nested := ← messagesOf 3 (MessageDecl.decode levels) rs
      enums := ← messagesOf 4 EnumDecl.decode rs
      extensionRanges := ← messagesOf 5 ExtensionRangeDecl.decode rs
      extensions := ← messagesOf 6 FieldDecl.decode rs
      oneofs := ← messagesOf 8 OneofDecl.decode rs
      reservedRanges := ← messagesOf 9 NumberRange.decode rs
      isMapEntry := (← flagOf? 7 options.records).getD false
      options }

def MethodDecl.decode (bytes : List UInt8) : Except WireFault MethodDecl := do
  let rs ← records bytes
  return {
    name := (← textOf? 1 rs).getD ""
    input := (← textOf? 2 rs).getD ""
    output := (← textOf? 3 rs).getD ""
    options := ← Options.decode 4 rs }

def ServiceDecl.decode (bytes : List UInt8) : Except WireFault ServiceDecl := do
  let rs ← records bytes
  return {
    name := (← textOf? 1 rs).getD ""
    methods := ← messagesOf 2 MethodDecl.decode rs
    options := ← Options.decode 3 rs }

def FileDecl.decode (bytes : List UInt8) : Except WireFault FileDecl := do
  let rs ← records bytes
  return {
    name := (← textOf? 1 rs).getD ""
    package := (← textOf? 2 rs).getD ""
    dependencies := ← textsOf 3 rs
    messages := ← messagesOf 4 (MessageDecl.decode nestingLimit) rs
    enums := ← messagesOf 5 EnumDecl.decode rs
    services := ← messagesOf 6 ServiceDecl.decode rs
    extensions := ← messagesOf 7 FieldDecl.decode rs
    options := ← Options.decode 8 rs
    publicDependencies := (← integersOf 10 rs).map toInt32
    weakDependencies := (← integersOf 11 rs).map toInt32
    version? := ← textOf? 12 rs }

def decodeFiles (bytes : List UInt8) : Except WireFault (List FileDecl) := do
  let rs ← records bytes
  let _ ← StandardType.fields.read nestingLimit .fileSet rs
  messagesOf 1 FileDecl.decode rs

end WireMapper.Protobuf
