import WireMapper.Protobuf.ScalarType

/-!
Reading a message by a description of its type: which fields it has, and what they hold. Every
record of a known field must be one that the field can have, down to the last nested message; what
is not known is passed over.
-/

namespace WireMapper.Protobuf

inductive Content (α : Type) where
  | scalar (type : ScalarType)
  | enum (values : List (String × Int))
  | message (type : α)
  | group (type : α)
deriving Repr

structure FieldShape (α : Type) where
  name : String
  number : Nat
  isRepeated : Bool
  content : Content α
deriving Repr

/-- The fields of messages. Of several with one number the first counts. -/
abbrev Shapes (α : Type) := α → List (FieldShape α)

def Shapes.field? {α : Type} (shapes : Shapes α) (type : α) (number : Nat) :
    Option (FieldShape α) :=
  (shapes type).find? (·.number = number)

/-- A value of a field. Of numbers and bytes only the presence is kept, since no option that matters
is made of them. -/
inductive TypedValue where
  | flag (value : Bool)
  | text (value : String)
  /-- The number of an enum value. -/
  | choice (number : Int)
  | plain
  | message (fields : List (Nat × TypedValue))
deriving Repr

/-- The values of a message in their order, each with the number of its field. -/
abbrev Fields := List (Nat × TypedValue)

def TypedValue.fields : TypedValue → Fields
  | message fields => fields
  | _ => []

def lastValue? (fields : Fields) (number : Nat) : Option TypedValue :=
  ((fields.filter (·.1 = number)).getLast?).map (·.2)

def ScalarType.decode (type : ScalarType) (number : Nat) (value : WireValue) :
    Except WireFault TypedValue :=
  match type.form, value with
  | .varint, .varint n => .ok (if type = bool then .flag (n ≠ 0) else .plain)
  | .fixed32, .fixed32 _ => .ok .plain
  | .fixed64, .fixed64 _ => .ok .plain
  | .delimited, .bytes content =>
    if type = string then
      match decodeText? content with
      | some text => .ok (.text text)
      | none => .error (.notText number)
    else
      .ok .plain
  | _, _ => .error (.wrongWireType number)

namespace Content

variable {α : Type}

def form : Content α → WireForm
  | scalar type => type.form
  | enum _ => .varint
  | message _ | group _ => .delimited

/-- The value that a record of a field holds; `inner` reads the message in it. -/
def decode (inner : α → List UInt8 → Except WireFault TypedValue) (number : Nat) :
    Content α → WireValue → Except WireFault TypedValue
  | scalar type, value => type.decode number value
  | enum _, .varint n => .ok (.choice (toInt32 n))
  | message type, .bytes content => inner type content
  | group type, .group content => inner type content
  | _, _ => .error (.wrongWireType number)

end Content

namespace FieldShape

variable {α : Type}

/-- The values that a record of the field holds: several if they are packed. -/
def decode (inner : α → List UInt8 → Except WireFault TypedValue) (f : FieldShape α)
    (value : WireValue) : Except WireFault (List TypedValue) := do
  let values ←
    match f.isRepeated, value with
    | true, .bytes content => f.content.form.unpack content
    | _, value => .ok [value]
  values.mapM (f.content.decode inner f.number)

end FieldShape

namespace Shapes

variable {α : Type} (shapes : Shapes α)

/-- The values in the records of a message of a type. What is not known is passed over with `skip`.
-/
def readEach (inner : α → List UInt8 → Except WireFault TypedValue)
    (skip : WireValue → Except WireFault Unit) (type : α) (rs : List Record) :
    Except WireFault Fields := do
  let values ← rs.mapM fun r =>
    match shapes.field? type r.number with
    | some f => return (← f.decode inner r.value).map (r.number, ·)
    | none => do
      skip r.value
      return []
  return values.flatten

/-- The values in the records of a message of a type, which may hold so many levels of messages. -/
def read : Nat → α → List Record → Except WireFault Fields
  | 0, type, rs => shapes.readEach (fun _ _ => .error .tooDeep) (·.skip 0) type rs
  | levels + 1, type, rs =>
    shapes.readEach
      (fun type content => do return .message (← read levels type (← records content)))
      (·.skip (levels + 1)) type rs

end Shapes

end WireMapper.Protobuf
