/-!
TOML values, and what can be wrong with a document or with the values in it. Of dates and times only
their presence is kept, since nothing reads them.
-/

namespace WireMapper.Toml

/-- A TOML value. The members of a table keep the order in which they were first written. -/
inductive Value where
  | string (value : String)
  | integer (value : Int)
  | float
  | boolean (value : Bool)
  | datetime
  | array (items : List Value)
  | table (members : List (String × Value))
deriving Repr, Inhabited

inductive Fault where
  | expected (what : String)
  | badCharacter
  | badEscape
  | unterminatedString
  | badScalar (text : String)
  | duplicateKey (key : String)
  | notExtensible (key : String)
  | nestedTooDeep
  | keyTooLong
  | wrongType (wanted : String)
  | missingKey (key : String)
  | unknownName (name : String)
deriving DecidableEq, Repr

/-- What is said about a fault. Where the document is at fault in one place, the text starts with
the same words; a key that is too long is a fault without a place. -/
def Fault.message : Fault → String
  | expected what => "TOML parse error: expected " ++ what
  | badCharacter => "TOML parse error: character not allowed here"
  | badEscape => "TOML parse error: invalid escape"
  | unterminatedString => "TOML parse error: unterminated string"
  | badScalar text => "TOML parse error: invalid value " ++ text
  | duplicateKey key => "TOML parse error: duplicate key " ++ key
  | notExtensible key => "TOML parse error: cannot extend " ++ key
  | nestedTooDeep => "TOML parse error: nested too deep"
  | keyTooLong => "recursion limit\n"
  | wrongType wanted => "TOML parse error: wanted " ++ wanted
  | missingKey key => "TOML parse error: missing key " ++ key
  | unknownName name => "TOML parse error: unknown name " ++ name

abbrev Reading (α : Type) := Except Fault (α × List Char)

end WireMapper.Toml
