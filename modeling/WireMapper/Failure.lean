import WireMapper.Config
import WireMapper.Hierarchy.Error

/-!
Why a command fails, as a user is told: what was being done, and what stood in the way, down to the
root cause.
-/

namespace WireMapper

inductive SchemaFault where
  | unreadable (cause : FileError)
  | malformed (error : Error)
deriving DecidableEq, Repr

def SchemaFault.causes : SchemaFault → List String
  | unreadable cause => [(Error.io cause.message).message, cause.message]
  | malformed e => [e.message]

inductive Failure where
  | configNotLoaded (path : Path) (fault : ConfigFault)
  | invalidConfig (fault : ConfigFault)
  | schemaNotLoaded (path : Path) (fault : SchemaFault)
  | classesNotLoaded (path : Path) (error : Hierarchy.Error)
  | classesMissing (path : Path)
  | unknownMessage (name : String)
  | reportNotWritten (path : Path) (cause : FileError)
  | notResolved (className field : String) (error : Hierarchy.Error)
deriving DecidableEq, Repr

namespace Failure

def message : Failure → String
  | configNotLoaded path _ => "Failed to load config: " ++ path.text
  | invalidConfig _ => "Invalid configuration"
  | schemaNotLoaded path _ => "Failed to load schema: " ++ path.text
  | classesNotLoaded path _ => "Failed to load runtime classes: " ++ path.text
  | classesMissing path => "Runtime class registry not found: " ++ path.text
  | unknownMessage name => "Unknown message: " ++ name
  | reportNotWritten path _ => "Failed to write report: " ++ path.text
  | notResolved className field _ => "Failed to resolve " ++ className ++ "." ++ field

/-- What stood in the way, from the nearest reason to the root cause. -/
def causes : Failure → List String
  | configNotLoaded _ fault | invalidConfig fault => [fault.toError.message]
  | schemaNotLoaded _ fault => fault.causes
  | classesNotLoaded _ e | notResolved _ _ e => e.causes
  | classesMissing _ | unknownMessage _ => []
  | reportNotWritten _ cause => [cause.message]

def chain (f : Failure) : List String :=
  f.message :: f.causes

end Failure

end WireMapper
