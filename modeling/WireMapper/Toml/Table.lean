import WireMapper.Toml.Value

/-!
Tables under construction. A document mentions a table in several places, and how the table came
about decides what may still be added to it: a header defines a table once, a dotted key only
extends tables that dotted keys made, and arrays and inline tables are complete where they are
written.
-/

namespace WireMapper.Toml

/-- What stands at a key: a value, or a table with the note how it came about. -/
inductive Origin where
  /-- On the way to the table of a header. -/
  | implicit
  /-- By a header of its own. -/
  | header
  /-- By a dotted key. -/
  | dotted
deriving DecidableEq, Repr

inductive Item where
  | value (value : Value)
  | table (origin : Origin) (members : List (String × Item))
  /-- An array of tables: those that are complete, and the one that headers and keys still extend.
  -/
  | tables (complete : List (List (String × Item))) (last : List (String × Item))
deriving Inhabited

abbrev Members := List (String × Item)

mutual

def Item.toValue : Item → Value
  | .value value => value
  | .table _ members => .table (membersToValues members)
  | .tables complete last =>
    .array (tablesToValues complete ++ [.table (membersToValues last)])

def membersToValues : Members → List (String × Value)
  | [] => []
  | (name, item) :: members => (name, item.toValue) :: membersToValues members

def tablesToValues : List Members → List Value
  | [] => []
  | members :: tables => .table (membersToValues members) :: tablesToValues tables

end

/-- The members with the item at a key changed, or a new one at their end. -/
def alterAt (name : String) (change : Option Item → Except Fault Item) :
    Members → Except Fault Members
  | [] => (change none).map fun item => [(name, item)]
  | (key, item) :: members =>
    if key = name then (change (some item)).map fun item => (key, item) :: members
    else (alterAt name change members).map ((key, item) :: ·)

/-- Changes the members of the table that dotted segments lead to. Tables are made on the way;
tables that a header defined, arrays and inline tables cannot be extended so. -/
def atDotted (change : Members → Except Fault Members) :
    List String → Members → Except Fault Members
  | [] => change
  | name :: names => alterAt name fun
    | none => (atDotted change names []).map (.table .dotted)
    | some (.table .dotted members) => (atDotted change names members).map (.table .dotted)
    | some (.table .implicit members) =>
      if names.isEmpty then .error (.duplicateKey name)
      else (atDotted change names members).map (.table .implicit)
    | some _ => .error (.notExtensible name)

def assign (names : List String) (value : Value) (members : Members) : Except Fault Members :=
  match names.getLast? with
  | none => .error (.expected "key")
  | some name =>
    atDotted
      (alterAt name fun
        | none => .ok (.value value)
        | some _ => .error (.duplicateKey name))
      names.dropLast members

/-- Changes the members of the table that the segments of a header lead to. Of an array of tables,
the last one is meant. -/
def atHeader (change : Members → Except Fault Members) :
    List String → Members → Except Fault Members
  | [] => change
  | name :: names => alterAt name fun
    | none => (atHeader change names []).map (.table .implicit)
    | some (.table origin members) => (atHeader change names members).map (.table origin)
    | some (.tables complete last) => (atHeader change names last).map (.tables complete)
    | some (.value _) => .error (.notExtensible name)

/-- Defines the table of a header. Only a table that was implicit until now may be there already. -/
def define (name : String) : Members → Except Fault Members :=
  alterAt name fun
    | none => .ok (.table .header [])
    | some (.table .implicit members) => .ok (.table .header members)
    | some _ => .error (.duplicateKey name)

def defineNext (name : String) : Members → Except Fault Members :=
  alterAt name fun
    | none => .ok (.tables [] [])
    | some (.tables complete last) => .ok (.tables (complete ++ [last]) [])
    | some _ => .error (.duplicateKey name)

end WireMapper.Toml
