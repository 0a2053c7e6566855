import WireMapper.FileTree

/-!
Why a field's place in a class hierarchy cannot be told.
-/

namespace WireMapper.Hierarchy

inductive Error where
  /-- No source root holds a file that declares the class. -/
  | notFound (className : String)
  | malformed (path : Path) (reason : String)
  /-- The classes entered, in order, up to the one whose file was entered before. -/
  | cyclic (classes : List String)
  | unreadable (path : Path) (cause : FileError)
  | registry (detail : String)
deriving DecidableEq, Repr

namespace Error

def code : Error → Nat
  | notFound _ => 101
  | malformed .. => 102
  | cyclic _ => 103
  | unreadable .. => 104
  | registry _ => 105

/-- After every error but a cycle a field can still be taken to be reached directly. -/
def isRecoverable : Error → Bool
  | cyclic _ => false
  | _ => true

def message : Error → String
  | notFound className => "class " ++ className ++ " not found in any source root"
  | malformed path reason => "malformed source " ++ path.text ++ ": " ++ reason
  | cyclic classes => "cyclic class hierarchy: " ++ " -> ".intercalate classes
  | unreadable path cause => "failed to read " ++ path.text ++ ": " ++ cause.message
  | registry detail => "invalid class registry: " ++ detail

/-- The messages from the error down to its root cause. -/
def causes (e : Error) : List String :=
  match e with
  | unreadable _ cause => [e.message, cause.message]
  | _ => [e.message]

end Error

end WireMapper.Hierarchy
