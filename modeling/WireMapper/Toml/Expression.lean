import WireMapper.Toml.Scalar
import WireMapper.Toml.Table

/-!
Keys and values as they are written, before it is known what they mean. How a document is put
together shows without looking into its strings and scalars, so what is wrong with one of these is
kept where it stands and comes up when the document is evaluated, in the order of the text.
-/

namespace WireMapper.Toml

abbrev Key := List (Except Fault String)

inductive Expression where
  | string (content : Except Fault String)
  /-- A value without quotes or brackets. -/
  | scalar (written : List Char)
  | array (items : List Expression)
  | table (members : List (Key × Expression))
deriving Inhabited

def segmentLimit : Nat := 80

def Key.names (key : Key) : Except Fault (List String) := do
  let names ← (key.take segmentLimit).mapM fun segment => segment
  if segmentLimit < key.length then .error .keyTooLong else return names

mutual

def Expression.eval : Expression → Except Fault Value
  | .string content => content.map .string
  | .scalar written => WireMapper.Toml.scalar written
  | .array items => (evalAll items).map .array
  | .table members => (evalMembers [] members).map fun members => .table (membersToValues members)

def evalAll : List Expression → Except Fault (List Value)
  | [] => .ok []
  | e :: es =>
    match e.eval with
    | .error fault => .error fault
    | .ok value => (evalAll es).map (value :: ·)

/-- The members of an inline table, added to those before. -/
def evalMembers (members : Members) : List (Key × Expression) → Except Fault Members
  | [] => .ok members
  | (key, e) :: rest =>
    match key.names, e.eval with
    | .error fault, _ => .error fault
    | .ok _, .error fault => .error fault
    | .ok names, .ok value =>
      match assign names value members with
      | .error fault => .error fault
      | .ok members => evalMembers members rest

end

end WireMapper.Toml
