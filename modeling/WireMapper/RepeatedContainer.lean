/-!
The Java collections in which a domain class can hold a repeated field.
-/

namespace WireMapper

inductive RepeatedContainer where
  | list
  | set
  | sortedSet
  | immutableList
  | immutableSet
  | stream
deriving DecidableEq, Repr

namespace RepeatedContainer

def ofNumber? : Int → Option RepeatedContainer
  | 0 => some list
  | 1 => some set
  | 2 => some sortedSet
  | 3 => some immutableList
  | 4 => some immutableSet
  | 5 => some stream
  | _ => none

def name : RepeatedContainer → String
  | list => "LIST"
  | set => "SET"
  | sortedSet => "SORTED_SET"
  | immutableList => "IMMUTABLE_LIST"
  | immutableSet => "IMMUTABLE_SET"
  | stream => "STREAM"

end RepeatedContainer

end WireMapper
