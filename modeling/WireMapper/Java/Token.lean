import WireMapper.Text.Quoted

/-!
Tokens of Java source, as far as declarations need them. Literals of every kind are one token
without content, so nothing inside a string can look like a brace or a semicolon.
-/

namespace WireMapper.Java

/-- A lexical unit of Java source. Keywords are identifiers here. -/
inductive Token where
  | ident (text : String)
  | literal
  | dot
  | semicolon
  | comma
  | openParen
  | closeParen
  | openBrace
  | closeBrace
  | openBracket
  | closeBracket
  | less
  | greater
  | equals
  | atSign
  | other (c : Char)
deriving DecidableEq, Repr

namespace Token

def kindName : Token → String
  | ident _ => "Ident"
  | literal => "Literal"
  | dot => "Dot"
  | semicolon => "Semi"
  | comma => "Comma"
  | openParen => "LParen"
  | closeParen => "RParen"
  | openBrace => "LBrace"
  | closeBrace => "RBrace"
  | openBracket => "LBracket"
  | closeBracket => "RBracket"
  | less => "Lt"
  | greater => "Gt"
  | equals => "Eq"
  | atSign => "At"
  | other _ => "Other"

/-- A token as messages name it: its kind, and in parentheses the text or character that tells it
from others of the kind. -/
def describe : Token → String
  | ident text => "Ident(" ++ Text.quote text ++ ")"
  | other c => "Other(" ++ Text.quoteChar c ++ ")"
  | token => token.kindName

def describeFound : Option Token → String
  | none => "None"
  | some token => "Some(" ++ token.describe ++ ")"

end Token

/-- A token and the line on which its first character stands. Lines are counted from one. -/
structure PlacedToken where
  token : Token
  line : Nat
deriving DecidableEq, Repr

end WireMapper.Java
