/-!
What can go wrong between a schema and the mapping made from it.
-/

namespace WireMapper

inductive Error where
  /-- A conversion was asked for that the field cannot have. -/
  | contractViolation (message field detail : String)
  | schema (detail : String)
  | config (detail : String)
  | serialization (detail : String)
  | io (detail : String)
  | resolution (detail : String)
deriving DecidableEq, Repr

namespace Error

/-- The stable number of the kind of failure. -/
def code : Error → Nat
  | contractViolation .. => 1
  | schema _ => 2
  | config _ => 3
  | serialization _ => 4
  | io _ => 5
  | resolution _ => 6

def message : Error → String
  | contractViolation message field detail =>
    "contract violation for field " ++ field ++ " of " ++ message ++ ": " ++ detail
  | schema detail => "schema error: " ++ detail
  | config detail => "configuration error: " ++ detail
  | serialization detail => "serialization error: " ++ detail
  | io detail => "I/O error: " ++ detail
  | resolution detail => "hierarchy resolution failed: " ++ detail

end Error

end WireMapper
