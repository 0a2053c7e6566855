/-!
Java expressions, as far as conversions between classes need them, and how they are written.
-/

namespace WireMapper.Java

inductive Expr where
  /-- An expression that is given in its written form: a variable, a class name, an operand. -/
  | source (text : String)
  | call (receiver : Expr) (method : String) (arguments : List Expr)
  /-- A call that is written without its receiver, to be put after one. -/
  | chained (method : String) (arguments : List Expr)
  | construct (type : String) (arguments : List Expr)
  | lambda (parameter : String) (body : Expr)
  | conditional (condition yes no : Expr)
deriving Repr, Inhabited

namespace Expr

mutual

/-- The written form. No parentheses are added, so an operand stands as it is given. -/
def render : Expr → String
  | source text => text
  | call receiver method arguments =>
    receiver.render ++ "." ++ method ++ "(" ++ renderArguments arguments ++ ")"
  | chained method arguments => "." ++ method ++ "(" ++ renderArguments arguments ++ ")"
  | construct type arguments => "new " ++ type ++ "(" ++ renderArguments arguments ++ ")"
  | lambda parameter body => parameter ++ " -> " ++ body.render
  | conditional condition yes no =>
    condition.render ++ " ? " ++ yes.render ++ " : " ++ no.render

def renderArguments : List Expr → String
  | [] => ""
  | [argument] => argument.render
  | argument :: arguments => argument.render ++ ", " ++ renderArguments arguments

end

end Expr

end WireMapper.Java
