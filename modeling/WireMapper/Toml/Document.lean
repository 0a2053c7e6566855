import WireMapper.Toml.Expression.Parser

/-!
TOML documents: lines with a header or with a key and a value. A document is read line by line to
its end; then the tables are built from its lines in order.
-/

namespace WireMapper.Toml

inductive Statement where
  | header (key : Key)
  | nextHeader (key : Key)
  | assignment (key : Key) (value : Expression)

def literally (wanted : List Char) (cs : List Char) : Except Fault (List Char) :=
  if wanted.isPrefixOf cs then .ok (cs.drop wanted.length)
  else .error (.expected (String.ofList wanted))

/-- Takes the rest of a line: blanks, an optional comment and the line break. -/
def endLine (cs : List Char) : Except Fault (List Char) := do
  let rest ←
    match skipBlanks cs with
    | '#' :: rest => skipComment rest
    | rest => .ok rest
  match rest with
  | [] => .ok []
  | '\n' :: rest => .ok rest
  | '\r' :: '\n' :: rest => .ok rest
  | _ => .error (.expected "end of line")

def nestingLimit : Nat := 80

def statement (cs : List Char) : Except Fault (Statement × List Char) :=
  match cs with
  | '[' :: '[' :: rest => do
    let (key, rest) ← key (skipBlanks rest)
    return (.nextHeader key, ← literally [']', ']'] (skipBlanks rest))
  | '[' :: rest => do
    let (key, rest) ← key (skipBlanks rest)
    return (.header key, ← literally [']'] (skipBlanks rest))
  | cs => do
    let (key, rest) ← key cs
    let rest ← literally ['='] (skipBlanks rest)
    let (value, rest) ← expression nestingLimit (skipBlanks rest)
    return (.assignment key value, rest.val)

/-- Takes the statements of a document. At most `lines` lines are read, and a document has fewer
lines than characters and one more. -/
def statementsFrom : Nat → List Char → Except Fault (List Statement)
  | 0, _ => .ok []
  | lines + 1, cs =>
    match skipLines cs with
    | .error e => .error e
    | .ok [] => .ok []
    | .ok cs => do
      let (first, rest) ← statement cs
      return first :: (← statementsFrom lines (← endLine rest))

def statements (cs : List Char) : Except Fault (List Statement) :=
  statementsFrom (cs.length + 1) cs

/-- The members of a document after one more statement, and the header that the next keys belong to.
-/
def Statement.run (s : Statement) (state : Members × List String) :
    Except Fault (Members × List String) :=
  match s with
  | .assignment key value => do
    let names ← key.names
    let value ← value.eval
    return (← atHeader (assign names value) state.2 state.1, state.2)
  | .header key => do
    let names ← key.names
    match names.getLast? with
    | none => .error (.expected "key")
    | some name => return (← atHeader (define name) names.dropLast state.1, names)
  | .nextHeader key => do
    let names ← key.names
    match names.getLast? with
    | none => .error (.expected "key")
    | some name => return (← atHeader (defineNext name) names.dropLast state.1, names)

/-- Reads a document as a table. A byte order mark at its start is passed over. -/
def parse (text : String) : Except Fault Value := do
  let cs :=
    match text.toList with
    | '\uFEFF' :: cs => cs
    | cs => cs
  let (members, _) ← (← statements cs).foldlM (fun state s => s.run state) ([], [])
  return .table (membersToValues members)

end WireMapper.Toml
