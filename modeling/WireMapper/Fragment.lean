import WireMapper.Text.Lines

/-!
Pieces of Java source. An expression has a value and may stand inside another one; a statement ends
in a semicolon or a brace and stands on lines of its own.
-/

namespace WireMapper

inductive Fragment where
  | expression (code : String)
  | statement (code : String)
deriving DecidableEq, Repr

namespace Fragment

def code : Fragment → String
  | expression code => code
  | statement code => code

def isStatement : Fragment → Bool
  | expression _ => false
  | statement _ => true

def endsStatement (code : String) : Bool :=
  code.toList.getLast? = some ';' || code.toList.getLast? = some '\x7d'

/-- The statement that runs the code; a semicolon is added where the code does not end in one or in
a closing brace. -/
def ofStatement (code : String) : Fragment :=
  statement (if endsStatement code then code else code.push ';')

def toStatement : Fragment → Fragment
  | expression code => ofStatement code
  | statement code => statement code

/-- The statement that runs the body if the condition holds; the lines of the body are indented by
four blanks. -/
def guarded (condition : String) (body : Fragment) : Fragment :=
  let lines := (Text.lines body.toStatement.code).map fun line => "    " ++ line ++ "\n"
  statement ("if (" ++ condition ++ ") \x7b\n" ++ String.join lines ++ "\x7d")

end Fragment

end WireMapper
