import WireMapper.Toml.Value

/-!
Reading typed data from TOML values. A record may be given as a table, where unknown keys are passed
over, or as an array of its fields in order; fields at the end of an array may be left out.
-/

namespace WireMapper.Toml.Value

def asString : Value → Except Fault String
  | string value => .ok value
  | _ => .error (.wrongType "a string")

def asBoolean : Value → Except Fault Bool
  | boolean value => .ok value
  | _ => .error (.wrongType "a boolean")

def asArray : Value → Except Fault (List Value)
  | array items => .ok items
  | _ => .error (.wrongType "an array")

/-- A value without content, as it may stand at the only key of a table that gives a name. -/
def isHollow : Value → Bool
  | array [] => true
  | table [] => true
  | _ => false

/-- One of a set of names: a string, or a table whose only key is the name. -/
def asName : Value → Except Fault String
  | string value => .ok value
  | table [(name, value)] => if value.isHollow then .ok name else .error (.wrongType "a name")
  | _ => .error (.wrongType "a name")

/-- The value of a record's field, which comes at the given position in the record. A date is a
record without any of the fields. -/
def field? (record : Value) (position : Nat) (name : String) : Except Fault (Option Value) :=
  match record with
  | table members => .ok (members.lookup name)
  | array items => .ok items[position]?
  | datetime => .ok none
  | _ => .error (.wrongType "a table")

/-- The field's value as `decode` reads it, or the default if the field is left out. -/
def fieldOr {α : Type} (record : Value) (position : Nat) (name : String)
    (decode : Value → Except Fault α) (default : α) : Except Fault α := do
  match ← record.field? position name with
  | some value => decode value
  | none => return default

/-- The value of a field that must be there, as `decode` reads it. -/
def requiredField {α : Type} (record : Value) (position : Nat) (name : String)
    (decode : Value → Except Fault α) : Except Fault α := do
  match ← record.field? position name with
  | some value => decode value
  | none => .error (.missingKey name)

end WireMapper.Toml.Value
