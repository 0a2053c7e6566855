import WireMapper.Text.GraphemeExtend
import WireMapper.Text.Unprintable

/-!
Quoted texts, as error messages show them. What cannot be shown as itself is written as an escape,
so a quoted text is one line, ends at its closing quote, and shows every character it holds.
-/

namespace WireMapper.Text

/-- The code point in lower-case hexadecimal digits between braces, after a backslash and a `u`. -/
def codePointEscape (c : Char) : List Char :=
  ['\\', 'u', '\x7b'] ++ Nat.toDigits 16 c.toNat ++ ['\x7d']

/-- The Hangul fillers: letters that take the place of a missing one and show nothing. -/
def isFiller (c : Char) : Bool :=
  c = '\u115f' || c = '\u1160' || c = '\u3164' || c = '\uffa0'

/-- A character as it stands between two delimiters. The other kind of quote needs no escape. -/
def escapeChar (delimiter c : Char) : List Char :=
  if c = delimiter ∨ c = '\\' then ['\\', c]
  else if c = '\n' then ['\\', 'n']
  else if c = '\t' then ['\\', 't']
  else if c = '\r' then ['\\', 'r']
  else if c = '\x00' then ['\\', '0']
  else if isUnprintable c || isJoiningMark c || isFiller c then codePointEscape c
  else [c]

def quote (s : String) : String :=
  String.ofList ('"' :: s.toList.flatMap (escapeChar '"') ++ ['"'])

def quoteChar (c : Char) : String :=
  String.ofList ('\'' :: escapeChar '\'' c ++ ['\''])

end WireMapper.Text
