import WireMapper.Protobuf.Names

/-!
The rules that messages, fields and enums keep by themselves, apart from the types they refer to.
-/

namespace WireMapper.Protobuf

/-- Numbers that fields may have: 29 bits, without those that are kept for the implementation. -/
def isFieldNumber (number : Int) : Bool :=
  0 < number && number < 0x20000000 && !(19000 ≤ number && number < 20000)

def NumberRange.contains (range : NumberRange) (number : Int) : Bool :=
  range.start ≤ number && number < range.stop

def NumberRange.containsValue (range : NumberRange) (number : Int) : Bool :=
  range.start ≤ number && number ≤ range.stop

def MessageDecl.isExtensionNumber (m : MessageDecl) (number : Int) : Bool :=
  m.extensionRanges.any (·.range.contains number)

def MessageDecl.isReserved (m : MessageDecl) (number : Int) : Bool :=
  m.reservedRanges.any (·.contains number)

def jsonChars (capital : Bool) : List Char → List Char
  | [] => []
  | c :: cs =>
    if c = '_' then jsonChars true cs
    else (if capital then c.toUpper else c) :: jsonChars false cs

def FieldDecl.jsonName (f : FieldDecl) : String :=
  f.jsonName?.getD (String.ofList (jsonChars false f.name.toList))

/-- The part of a field name that must differ between the fields of a message. -/
def plainName (name : String) : String :=
  String.ofList ((name.toList.filter (· ≠ '_')).map (·.toLower))

def MessageDecl.oneof? (m : MessageDecl) (index : Int) : Option OneofDecl :=
  if index < 0 then none else m.oneofs[index.toNat]?

/-- Checks a field of a message whose full name is given. A field that names an extended message
must have a number that is left to extensions, and another one must not. -/
def MessageDecl.checkField (m : MessageDecl) (scope : String) (f : FieldDecl) :
    Except LinkFault Unit := do
  let fullName := qualify scope f.name
  if !isFieldNumber f.number then .error (.numberOutOfRange fullName f.number)
  if m.isReserved f.number then .error (.reservedNumber fullName f.number)
  match f.extendee?, m.isExtensionNumber f.number with
  | none, true => .error (.extensionNumber fullName f.number)
  | some _, false => .error (.notAnExtensionNumber fullName f.number)
  | none, false | some _, true => .ok ()
  if let some index := f.oneofIndex? then
    if (m.oneof? index).isNone then .error (.missingOneof fullName index)

/-- Checks a message whose full name is given. Field names that differ in underscores and case alone
are allowed in the older dialect only. -/
def MessageDecl.check (m : MessageDecl) (dialect : Dialect) (fullName : String) :
    Except LinkFault Unit := do
  m.fields.forM (m.checkField fullName)
  if let some number := Names.repeated? (m.fields.map (·.number)) then
    .error (.repeatedNumber fullName number)
  if dialect ≠ .proto2 then
    if let some name := Names.repeated? (m.fields.map (plainName ·.name)) then
      .error (.similarNames fullName name)
  if let some name := Names.repeated? (m.fields.map (·.jsonName)) then
    .error (.repeatedJsonName fullName name)

def EnumDecl.check (e : EnumDecl) (dialect : Dialect) (fullName : String) :
    Except LinkFault Unit := do
  match e.values with
  | [] => .error (.emptyEnum fullName)
  | first :: _ =>
    if dialect ≠ .proto2 ∧ first.number ≠ 0 then .error (.firstValueNotZero fullName)
    if !e.allowAlias then
      if let some number := Names.repeated? (e.values.map (·.number)) then
        .error (.repeatedValue fullName number)
    if let some v := e.values.find? fun v => e.reservedRanges.any (·.containsValue v.number) then
      .error (.reservedValue fullName v.number)

/-- The values with one more among them, by ascending number. Of the values with one number the one
declared first stays the last. -/
def insertValue (v : EnumValueDecl) : List EnumValueDecl → List EnumValueDecl
  | [] => [v]
  | w :: ws =>
    let wStays :=
      w.number < v.number || (w.number = v.number && (ws.head?.map (·.number)) = some v.number)
    if wStays then w :: insertValue v ws else v :: w :: ws

def EnumDecl.sortedValues (e : EnumDecl) : List EnumValueDecl :=
  e.values.foldl (fun sorted v => insertValue v sorted) []

end WireMapper.Protobuf
