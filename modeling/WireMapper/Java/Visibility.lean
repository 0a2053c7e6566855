/-!
How far a Java field can be seen.
-/

namespace WireMapper.Java

/-- The access level of a field. A field without a modifier has the level of its package. -/
inductive Visibility where
  | public_
  | protected_
  | package
  | private_
deriving DecidableEq, Repr

namespace Visibility

def name : Visibility → String
  | public_ => "public"
  | protected_ => "protected"
  | package => "package"
  | private_ => "private"

/-- The access level with a name. Package access may also be written `package-private`. -/
def ofName? : String → Option Visibility
  | "public" => some public_
  | "protected" => some protected_
  | "package" => some package
  | "package-private" => some package
  | "private" => some private_
  | _ => none

/-- The levels at which a subclass reaches a field only through its accessors. -/
def isRestricted : Visibility → Bool
  | public_ | package => false
  | protected_ | private_ => true

end Visibility

end WireMapper.Java
