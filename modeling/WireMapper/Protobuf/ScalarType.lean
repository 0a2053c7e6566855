import WireMapper.Protobuf.Record

/-!
The types of fields that are not declared in a schema, and the shapes of records that hold their
values. Values of a repeated field may be packed into one record, unless their own length varies in
a way that only a record can tell.
-/

namespace WireMapper.Protobuf

inductive ScalarType where
  | double | float
  | int32 | int64 | uint32 | uint64 | sint32 | sint64 | fixed32 | fixed64 | sfixed32 | sfixed64
  | bool | string | bytes
deriving DecidableEq, Repr

def ScalarType.ofNumber? : Int → Option ScalarType
  | 1 => some double
  | 2 => some float
  | 3 => some int64
  | 4 => some uint64
  | 5 => some int32
  | 6 => some fixed64
  | 7 => some fixed32
  | 8 => some bool
  | 9 => some string
  | 12 => some bytes
  | 13 => some uint32
  | 15 => some sfixed32
  | 16 => some sfixed64
  | 17 => some sint32
  | 18 => some sint64
  | _ => none

/-- The integers of an integer type, from the first one up to one that is not among them. -/
def ScalarType.integers? : ScalarType → Option (Int × Int)
  | int32 | sint32 | sfixed32 => some (-0x80000000, 0x80000000)
  | int64 | sint64 | sfixed64 => some (-0x8000000000000000, 0x8000000000000000)
  | uint32 | fixed32 => some (0, 0x100000000)
  | uint64 | fixed64 => some (0, 0x10000000000000000)
  | double | float | bool | string | bytes => none

inductive WireForm where
  | varint
  | fixed32
  | fixed64
  | delimited
deriving DecidableEq, Repr

def ScalarType.form : ScalarType → WireForm
  | double | fixed64 | sfixed64 => .fixed64
  | float | fixed32 | sfixed32 => .fixed32
  | int32 | int64 | uint32 | uint64 | sint32 | sint64 | bool => .varint
  | string | bytes => .delimited

def readFixed (width : Nat) (bytes : List UInt8) : Except WireFault (List (List UInt8)) :=
  if bytes.length % width = 0 then
    .ok ((List.range (bytes.length / width)).map fun i => (bytes.drop (width * i)).take width)
  else
    .error .truncated

def WireForm.unpack (form : WireForm) (bytes : List UInt8) : Except WireFault (List WireValue) :=
  match form with
  | varint => (readPacked bytes).map fun values => values.map .varint
  | fixed32 => (readFixed 4 bytes).map fun pieces => pieces.map .fixed32
  | fixed64 => (readFixed 8 bytes).map fun pieces => pieces.map .fixed64
  | delimited => .ok [.bytes bytes]

end WireMapper.Protobuf
