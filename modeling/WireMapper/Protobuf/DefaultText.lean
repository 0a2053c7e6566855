import WireMapper.Protobuf.Declaration

/-!
The texts that a schema may give as the default value of a field of a scalar type: decimal integers
in the type's range, decimal and special floating point numbers, `true` and `false`, any text, and
bytes with the escapes of C.
-/

namespace WireMapper.Protobuf

def digitsValue? (cs : List Char) : Option Nat :=
  if !cs.isEmpty && cs.all (·.isDigit) then
    some (cs.foldl (fun value c => 10 * value + (c.toNat - '0'.toNat)) 0)
  else
    none

/-- The value of a decimal integer. A plus sign may come first, or a minus sign if the type has one.
-/
def integerValue? (signed : Bool) : List Char → Option Int
  | '-' :: cs => if signed then (digitsValue? cs).map fun n => -(n : Int) else none
  | '+' :: cs => (digitsValue? cs).map fun n => (n : Int)
  | cs => (digitsValue? cs).map fun n => (n : Int)

def isIntegerIn (low high : Int) (cs : List Char) : Bool :=
  match integerValue? (low < 0) cs with
  | some value => low ≤ value && value < high
  | none => false

def isSignedDigits : List Char → Bool
  | '-' :: cs => (digitsValue? cs).isSome
  | '+' :: cs => (digitsValue? cs).isSome
  | cs => (digitsValue? cs).isSome

/-- A decimal number without sign: digits with at most one point among them, and an exponent if
there is a letter `e`. -/
def isDecimal (cs : List Char) : Bool :=
  let isMark (c : Char) : Bool := c = 'e' || c = 'E'
  let mantissa := cs.takeWhile fun c => !isMark c
  let whole := mantissa.takeWhile (· ≠ '.')
  let fraction := (mantissa.dropWhile (· ≠ '.')).drop 1
  let exponentFits :=
    match cs.dropWhile fun c => !isMark c with
    | [] => true
    | _ :: exponent => isSignedDigits exponent
  !(whole.isEmpty && fraction.isEmpty) && whole.all (·.isDigit) && fraction.all (·.isDigit) &&
    exponentFits

/-- A floating point number. The case of letters does not matter. -/
def isFloat (cs : List Char) : Bool :=
  let unsigned :=
    match cs with
    | '-' :: cs => cs
    | '+' :: cs => cs
    | cs => cs
  ["inf", "infinity", "nan"].contains (String.ofList (unsigned.map (·.toLower))) ||
    isDecimal unsigned

def isHexDigit (c : Char) : Bool :=
  c.isDigit || ('a' ≤ c && c ≤ 'f') || ('A' ≤ c && c ≤ 'F')

/-- Two characters that write a byte in hexadecimal digits. A plus sign may stand for the first. -/
def isHexByte (a b : Char) : Bool :=
  (isHexDigit a || a = '+') && isHexDigit b

/-- Bytes written with the escapes of C. Every character may stand for itself but the backslash. -/
def isEscapedBytes : List Char → Bool
  | [] => true
  | '\\' :: 'x' :: a :: b :: cs => isHexByte a b && isEscapedBytes cs
  | '\\' :: 'X' :: a :: b :: cs => isHexByte a b && isEscapedBytes cs
  | '\\' :: c :: cs => "abfnrtv\\?'\"01234567".toList.contains c && isEscapedBytes cs
  | c :: cs => c ≠ '\\' && isEscapedBytes cs

def ScalarType.hasDefault (type : ScalarType) (text : String) : Bool :=
  let cs := text.toList
  match type with
  | double | float => isFloat cs
  | bool => text = "true" || text = "false"
  | string => true
  | bytes => isEscapedBytes cs
  | type => type.integers?.any fun (low, high) => isIntegerIn low high cs

end WireMapper.Protobuf
