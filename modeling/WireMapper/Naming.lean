import WireMapper.Text.Pieces
import WireMapper.Text.Uppercase

/-!
Names of accessors. Wire classes name the accessors of a field by the camel case of its name, with a
new word after every underscore and digit; domain classes name theirs by the field name itself with
a capital first letter.
-/

namespace WireMapper.Naming

open WireMapper.Text

def capitalize (s : String) : String :=
  match s.toList with
  | [] => ""
  | c :: cs => String.ofList (upperChars c ++ cs)

def dropUnderscore (s : String) : String :=
  match s.toList with
  | '_' :: cs => String.ofList cs
  | _ => s

/-- Camel case from here on; `fresh` says that the next letter starts a word. Underscores vanish,
and a digit ends a word without being capitalised. -/
def camelChars (fresh : Bool) : List Char → List Char
  | [] => []
  | c :: cs =>
    if c = '_' then camelChars true cs
    else if c.isDigit then c :: camelChars true cs
    else if fresh then upperChars c ++ camelChars false cs
    else c :: camelChars false cs

/-- What a wire class writes after `get`, `set` or `has` for a field. -/
def accessorSuffix (field : String) : String :=
  String.ofList (camelChars true field.toList)

def getter (field : String) : String :=
  "get" ++ capitalize field

def setter (field : String) : String :=
  "set" ++ capitalize field

def simpleName (name : String) : String :=
  (split '.' name).getLastD name

end WireMapper.Naming
