import WireMapper.Protobuf.Wire

/-!
Reading the fields of a message from its records. Records of one field add up if the field is
repeated; otherwise the last one counts, and the parts of a nested message are put together. A
record of a field that is read must have the field's wire type.
-/

namespace WireMapper.Protobuf

def valuesOf (number : Nat) (rs : List Record) : List WireValue :=
  (rs.filter (·.number = number)).map (·.value)

def readPacked (bytes : List UInt8) : Except WireFault (List Nat) :=
  if bytes = [] then .ok []
  else
    match _h : readVarint bytes with
    | .error e => .error e
    | .ok (value, rest) => (readPacked rest).map (value :: ·)
termination_by bytes.length
decreasing_by exact length_readVarint ‹_›

/-- The integers of a repeated field, which may be written packed. -/
def integersOf (number : Nat) (rs : List Record) : Except WireFault (List Nat) :=
  return (← (valuesOf number rs).mapM fun value =>
    match value with
    | .varint value => .ok [value]
    | .bytes content => readPacked content
    | _ => .error (.wrongWireType number)).flatten

def integerOf? (number : Nat) (rs : List Record) : Except WireFault (Option Nat) :=
  return (← (valuesOf number rs).mapM fun value =>
    match value with
    | .varint value => .ok value
    | _ => .error (.wrongWireType number)).getLast?

def toInt32 (value : Nat) : Int :=
  (value : Int).bmod 0x100000000

def int32Of? (number : Nat) (rs : List Record) : Except WireFault (Option Int) :=
  return (← integerOf? number rs).map toInt32

def flagOf? (number : Nat) (rs : List Record) : Except WireFault (Option Bool) :=
  return (← integerOf? number rs).map (· ≠ 0)

def contentsOf (number : Nat) (rs : List Record) : Except WireFault (List (List UInt8)) :=
  (valuesOf number rs).mapM fun value =>
    match value with
    | .bytes content => .ok content
    | _ => .error (.wrongWireType number)

def decodeText? (content : List UInt8) : Option String :=
  String.fromUTF8? ⟨content.toArray⟩

def textsOf (number : Nat) (rs : List Record) : Except WireFault (List String) := do
  (← contentsOf number rs).mapM fun content =>
    match decodeText? content with
    | some text => .ok text
    | none => .error (.notText number)

def textOf? (number : Nat) (rs : List Record) : Except WireFault (Option String) :=
  return (← textsOf number rs).getLast?

def messagesOf {α : Type} (number : Nat) (decode : List UInt8 → Except WireFault α)
    (rs : List Record) : Except WireFault (List α) := do
  (← contentsOf number rs).mapM decode

/-- The records of a nested message that is not repeated; its parts are put together. -/
def recordsOf (number : Nat) (rs : List Record) : Except WireFault (List Record) :=
  return (← messagesOf number records rs).flatten

end WireMapper.Protobuf
