/-!
The binary form of protobuf messages. A message is a sequence of records, each a field number and a
value whose shape the wire type tells. Groups are an old shape of nested message: they stand between
two keys and may stand in each other.
-/

namespace WireMapper.Protobuf

inductive WireFault where
  | truncated
  | integerTooLong
  | keyTooLarge
  | numberZero
  | unknownWireType (type : Nat)
  | strayGroupEnd
  | tooDeep
  | wrongWireType (number : Nat)
  | notText (number : Nat)
deriving DecidableEq, Repr

def WireFault.message : WireFault → String
  | truncated => "the bytes end inside a value"
  | integerTooLong => "an integer has more than 64 bits"
  | keyTooLarge => "a key has more than 32 bits"
  | numberZero => "a field has the number 0"
  | unknownWireType type => "there is no wire type " ++ toString type
  | strayGroupEnd => "a group ends that is not open"
  | tooDeep => "messages are nested too deep"
  | wrongWireType number => "field " ++ toString number ++ " has another wire type"
  | notText number => "field " ++ toString number ++ " is no text in UTF-8"

/-- The value of a record. The content of a group ends before the key that closes it. -/
inductive WireValue where
  | varint (value : Nat)
  | fixed64 (content : List UInt8)
  | bytes (content : List UInt8)
  | group (content : List UInt8)
  | fixed32 (content : List UInt8)
deriving DecidableEq, Repr

structure Record where
  number : Nat
  value : WireValue
deriving DecidableEq, Repr

/-- An integer of at most `limit` bytes, seven bits a byte, the lowest first. The high bit of a byte
says that another one follows. -/
def readBase128 : Nat → List UInt8 → Except WireFault (Nat × List UInt8)
  | 0, _ => .error .integerTooLong
  | _ + 1, [] => .error .truncated
  | limit + 1, byte :: bytes =>
    if byte < 128 then .ok (byte.toNat, bytes)
    else
      match readBase128 limit bytes with
      | .error e => .error e
      | .ok (high, rest) => .ok (byte.toNat - 128 + 128 * high, rest)

def readVarint (bytes : List UInt8) : Except WireFault (Nat × List UInt8) :=
  match readBase128 10 bytes with
  | .error e => .error e
  | .ok (value, rest) =>
      if value < 0x10000000000000000 then .ok (value, rest) else .error .integerTooLong

def readBytes (count : Nat) (bytes : List UInt8) : Except WireFault (List UInt8 × List UInt8) :=
  if count ≤ bytes.length then .ok (bytes.take count, bytes.drop count) else .error .truncated

inductive Item where
  | record (r : Record)
  | groupStart (number : Nat)
  | groupEnd (number : Nat)

def readValue (number type : Nat) (bytes : List UInt8) : Except WireFault (Item × List UInt8) :=
  match type with
  | 0 => (readVarint bytes).map fun (value, rest) => (.record ⟨number, .varint value⟩, rest)
  | 1 => (readBytes 8 bytes).map fun (content, rest) => (.record ⟨number, .fixed64 content⟩, rest)
  | 2 =>
    match readVarint bytes with
    | .error e => .error e
    | .ok (size, rest) =>
      (readBytes size rest).map fun (content, rest) => (.record ⟨number, .bytes content⟩, rest)
  | 3 => .ok (.groupStart number, bytes)
  | 4 => .ok (.groupEnd number, bytes)
  | 5 => (readBytes 4 bytes).map fun (content, rest) => (.record ⟨number, .fixed32 content⟩, rest)
  | type => .error (.unknownWireType type)

def readItem (bytes : List UInt8) : Except WireFault (Item × List UInt8) :=
  match readVarint bytes with
  | .error e => .error e
  | .ok (key, rest) =>
    if 0x100000000 ≤ key then .error .keyTooLarge
    else if key / 8 = 0 then .error .numberZero
    else readValue (key / 8) (key % 8) rest

theorem length_readBase128 {limit value : Nat} {bytes rest : List UInt8}
    (h : readBase128 limit bytes = .ok (value, rest)) : rest.length < bytes.length := by
  fun_induction readBase128 limit bytes generalizing value with
  | case1 | case2 | case4 => simp at h
  | case3 => simp_all
  | case5 limit byte bytes _ high rest' hread ih =>
    simp only [Except.ok.injEq, Prod.mk.injEq] at h
    have := ih (h.2 ▸ hread)
    simp only [List.length_cons]
    omega

theorem length_readVarint {value : Nat} {bytes rest : List UInt8}
    (h : readVarint bytes = .ok (value, rest)) : rest.length < bytes.length := by
  grind [readVarint, → length_readBase128]

theorem length_readBytes {count : Nat} {bytes content rest : List UInt8}
    (h : readBytes count bytes = .ok (content, rest)) : rest.length ≤ bytes.length := by
  grind [readBytes]

theorem length_readValue {number type : Nat} {bytes rest : List UInt8} {item : Item}
    (h : readValue number type bytes = .ok (item, rest)) : rest.length ≤ bytes.length := by
  unfold readValue Except.map at h
  grind [→ length_readVarint, → length_readBytes]

/-- An item takes at least its key. -/
theorem length_readItem {bytes rest : List UInt8} {item : Item}
    (h : readItem bytes = .ok (item, rest)) : rest.length < bytes.length := by
  grind [readItem, → length_readVarint, → length_readValue]

/-- The end of a group with a number: the bytes from the closing key on, and those after that key.
`opened` holds the numbers of the groups in it that are not closed yet, innermost first. -/
def closeGroup (number : Nat) (opened : List Nat) (bytes : List UInt8) :
    Except WireFault (List UInt8 × List UInt8) :=
  match _h : readItem bytes with
  | .error e => .error e
  | .ok (.record _, rest) => closeGroup number opened rest
  | .ok (.groupStart inner, rest) => closeGroup number (inner :: opened) rest
  | .ok (.groupEnd closed, rest) =>
    match opened with
    | [] => if closed = number then .ok (bytes, rest) else .error .strayGroupEnd
    | innermost :: opened =>
      if closed = innermost then closeGroup number opened rest else .error .strayGroupEnd
termination_by bytes.length
decreasing_by all_goals exact length_readItem ‹_›

/-- The key that closes a group is taken too, so the search for the end goes on in fewer bytes. -/
theorem length_closeGroup {number : Nat} {opened : List Nat} {bytes atEnd rest : List UInt8}
    (h : closeGroup number opened bytes = .ok (atEnd, rest)) : rest.length < bytes.length := by
  fun_induction closeGroup number opened bytes with
  | case1 => cases h
  | case2 _ _ _ _ hitem ih | case3 _ _ _ _ hitem ih =>
    exact Nat.lt_trans (ih h) (length_readItem hitem)
  | case4 => cases h; exact length_readItem ‹_›
  | case5 => cases h
  | case6 => rename_i hitem ih; exact Nat.lt_trans (ih h) (length_readItem hitem)
  | case7 => cases h

def records (bytes : List UInt8) : Except WireFault (List Record) :=
  if bytes = [] then .ok []
  else
    match _h : readItem bytes with
    | .error e => .error e
    | .ok (.groupEnd _, _) => .error .strayGroupEnd
    | .ok (.record r, rest) => (records rest).map (r :: ·)
    | .ok (.groupStart number, rest) =>
      match _hg : closeGroup number [] rest with
      | .error e => .error e
      | .ok (atEnd, after) =>
        (records after).map
          (⟨number, .group (rest.take (rest.length - atEnd.length))⟩ :: ·)
termination_by bytes.length
decreasing_by
  · exact length_readItem ‹_›
  · exact Nat.lt_trans (length_closeGroup ‹_›) (length_readItem ‹_›)

def nestingLimit : Nat := 100

/-- Passes over a value that nothing is known about, in a message that may hold so many levels of
messages. It counts as a level itself, and so do the groups in it. -/
def WireValue.skip : Nat → WireValue → Except WireFault Unit
  | 0, _ => .error .tooDeep
  | levels + 1, .group content => do
    (← records content).forM fun r => r.value.skip levels
  | _ + 1, _ => .ok ()

end WireMapper.Protobuf
