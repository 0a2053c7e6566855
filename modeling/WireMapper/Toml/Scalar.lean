import WireMapper.Text.Pieces
import WireMapper.Toml.Value

/-!
TOML values that are written without quotes or brackets: booleans, integers, floats, dates and
times. Such a value is judged as a whole, once it is known where it ends.
-/

namespace WireMapper.Toml

open WireMapper.Text

/-- The digits of a number without the underscores between them. There must be a digit on both sides
of each underscore. -/
def digits? (isDigit : Char → Bool) (cs : List Char) : Option (List Char) :=
  let groups := splitChars '_' cs
  if groups.all fun group => !group.isEmpty && group.all isDigit then some groups.flatten else none

def digitsValue (base : Nat) (digits : List Char) : Nat :=
  digits.foldl
    (fun n c =>
      let value :=
        if c.isDigit then c.toNat - '0'.toNat else c.toLower.toNat - 'a'.toNat + 10
      n * base + value)
    0

def isHexDigit (c : Char) : Bool :=
  c.isDigit || ('a' ≤ c.toLower && c.toLower ≤ 'f')

def isOctalDigit (c : Char) : Bool :=
  '0' ≤ c && c ≤ '7'

def isBinaryDigit (c : Char) : Bool :=
  c = '0' || c = '1'

/-- The decimal digits of a number that has no leading zero. -/
def decimal? (cs : List Char) : Option (List Char) :=
  match digits? Char.isDigit cs with
  | some ['0'] => some ['0']
  | some ('0' :: _) => none
  | digits => digits

/-- Whether a sign comes first that makes the number negative, and the characters after it. -/
def takeSign : List Char → Bool × List Char
  | '+' :: cs => (false, cs)
  | '-' :: cs => (true, cs)
  | cs => (false, cs)

/-- The integers that any reader of integers can hold. -/
def inIntegerRange (n : Int) : Bool :=
  -0x80000000000000000000000000000000 ≤ n && n < 0x100000000000000000000000000000000

def integer? (cs : List Char) : Option Int :=
  match cs with
  | '0' :: 'x' :: cs => (digits? isHexDigit cs).map (digitsValue 16 ·)
  | '0' :: 'o' :: cs => (digits? isOctalDigit cs).map (digitsValue 8 ·)
  | '0' :: 'b' :: cs => (digits? isBinaryDigit cs).map (digitsValue 2 ·)
  | cs =>
    (decimal? (takeSign cs).2).map fun digits =>
      let n : Int := digitsValue 10 digits
      if (takeSign cs).1 then -n else n

/-- Whether `mantissa` times ten to the power `exponent` is beyond the largest double, that is, no
nearer to it than to the next power of two. -/
def exceedsDouble (mantissa : Nat) (exponent : Int) : Bool :=
  if mantissa = 0 then false
  else if exponent > 400 then true
  else if exponent ≥ 0 then mantissa * Nat.pow 10 exponent.toNat ≥ Nat.pow 2 1024 - Nat.pow 2 970
  else if -exponent > (Nat.toDigits 10 mantissa).length then false
  else mantissa ≥ (Nat.pow 2 1024 - Nat.pow 2 970) * Nat.pow 10 (-exponent).toNat

/-- A float: a decimal with a fraction, an exponent or both, or one of the two special values. -/
def isFloat (cs : List Char) : Bool :=
  let body := (takeSign cs).2
  if body = "inf".toList || body = "nan".toList then true
  else
    let isExponentMark (c : Char) : Bool := c = 'e' || c = 'E'
    let mantissa := body.takeWhile fun c => !isExponentMark c
    let exponent? : Option (Bool × List Char) :=
      match body.dropWhile fun c => !isExponentMark c with
      | [] => some (false, [])
      | _ :: e => (digits? Char.isDigit (takeSign e).2).map ((takeSign e).1, ·)
    let fraction? : Option (List Char) :=
      match mantissa.dropWhile (· ≠ '.') with
      | [] => some []
      | _ :: f => digits? Char.isDigit f
    match decimal? (mantissa.takeWhile (· ≠ '.')), fraction?, exponent? with
    | some whole, some fraction, some (negative, exponent) =>
      if fraction.isEmpty && exponent.isEmpty then false
      else
        let power : Int := digitsValue 10 exponent
        let power := (if negative then -power else power) - fraction.length
        !exceedsDouble (digitsValue 10 (whole ++ fraction)) power
    | _, _, _ => false

def takeNumber? (width : Nat) (cs : List Char) : Option (Nat × List Char) :=
  let digits := cs.take width
  if digits.length = width && digits.all Char.isDigit then
    some (digitsValue 10 digits, cs.drop width)
  else
    none

def after? (c : Char) : List Char → Option (List Char)
  | [] => none
  | d :: cs => if d = c then some cs else none

def isLeapYear (year : Nat) : Bool :=
  (year % 4 = 0 && year % 100 ≠ 0) || year % 400 = 0

def daysInMonth (year month : Nat) : Nat :=
  if month = 2 then (if isLeapYear year then 29 else 28)
  else if month = 4 || month = 6 || month = 9 || month = 11 then 30
  else 31

def afterDate? (cs : List Char) : Option (List Char) := do
  let (year, cs) ← takeNumber? 4 cs
  let (month, cs) ← takeNumber? 2 (← after? '-' cs)
  let (day, cs) ← takeNumber? 2 (← after? '-' cs)
  if 1 ≤ month ∧ month ≤ 12 ∧ 1 ≤ day ∧ day ≤ daysInMonth year month then some cs else none

/-- The characters after the seconds of a time, which may have a fraction. There is room for a leap
second. -/
def afterSeconds? (cs : List Char) : Option (List Char) := do
  let (second, cs) ← takeNumber? 2 cs
  if second ≤ 60 then
    match cs with
    | '.' :: d :: cs => if d.isDigit then some (cs.dropWhile Char.isDigit) else none
    | cs => some cs
  else
    none

/-- The characters after a time of day. Seconds may be left out. -/
def afterTime? (cs : List Char) : Option (List Char) := do
  let (hour, cs) ← takeNumber? 2 cs
  let (minute, cs) ← takeNumber? 2 (← after? ':' cs)
  if hour ≤ 23 ∧ minute ≤ 59 then
    match cs with
    | ':' :: cs => afterSeconds? cs
    | cs => some cs
  else
    none

def isOffset (cs : List Char) : Bool :=
  match cs with
  | [] => true
  | ['Z'] => true
  | ['z'] => true
  | sign :: cs =>
    (sign = '+' || sign = '-') &&
      (do
        let (hour, cs) ← takeNumber? 2 cs
        let (minute, cs) ← takeNumber? 2 (← after? ':' cs)
        if hour ≤ 23 ∧ minute ≤ 59 ∧ cs = [] then some () else none).isSome

def isDate (cs : List Char) : Bool :=
  afterDate? cs = some []

def isDatetime (cs : List Char) : Bool :=
  afterTime? cs = some [] ||
    match afterDate? cs with
    | none => false
    | some [] => true
    | some (mark :: cs) =>
      (mark = 'T' || mark = 't' || mark = ' ') && (afterTime? cs).any isOffset

def scalar (cs : List Char) : Except Fault Value :=
  if cs = "true".toList then .ok (.boolean true)
  else if cs = "false".toList then .ok (.boolean false)
  else
    match integer? cs with
    | some n =>
        if inIntegerRange n then .ok (.integer n) else .error (.badScalar (String.ofList cs))
    | none =>
      if isFloat cs then .ok .float
      else if isDatetime cs then .ok .datetime
      else .error (.badScalar (String.ofList cs))

end WireMapper.Toml
