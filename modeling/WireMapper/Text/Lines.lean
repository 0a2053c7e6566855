/-!
The lines of a text. A line ends at a line feed, a carriage return just before that line feed
belongs to the line break, and a text that ends in a line break has no empty line after it.
-/

namespace WireMapper.Text

def dropReturn (line : List Char) : List Char :=
  if line.getLast? = some '\r' then line.dropLast else line

/-- The lines from here on; `pending` is the start of the current line, in reverse. -/
def linesFrom (pending : List Char) : List Char → List (List Char)
  | [] => if pending.isEmpty then [] else [pending.reverse]
  | c :: cs =>
    if c = '\n' then
      dropReturn pending.reverse :: linesFrom [] cs
    else
      linesFrom (c :: pending) cs

def lines (s : String) : List String :=
  (linesFrom [] s.toList).map String.ofList

end WireMapper.Text
