import WireMapper.RepeatedContainer

/-!
The Java type of a field as both sides of a mapping see it. The model says what the domain class
declares and how it differs from the wire class: nothing for scalars, a conversion of its own for
enums and messages, element by element for collections, and one level less for wrappers.
-/

namespace WireMapper

inductive Scalar where
  | int
  | long
  | float
  | double
  | boolean
  | string
  | byteString
deriving DecidableEq, Repr

namespace Scalar

def javaType : Scalar → String
  | int => "int"
  | long => "long"
  | float => "float"
  | double => "double"
  | boolean => "boolean"
  | string => "String"
  | byteString => "ByteString"

def boxedJavaType : Scalar → String
  | int => "Integer"
  | long => "Long"
  | float => "Float"
  | double => "Double"
  | boolean => "Boolean"
  | string => "String"
  | byteString => "ByteString"

def name : Scalar → String
  | int => "int"
  | long => "long"
  | float => "float"
  | double => "double"
  | boolean => "boolean"
  | string => "string"
  | byteString => "byte_string"

def isPrimitive : Scalar → Bool
  | string | byteString => false
  | _ => true

end Scalar

/-- The type of a field on the domain side together with what it is on the wire. -/
inductive TypeModel where
  | scalar (scalar : Scalar) (boxed : Bool)
  | enum (wireType domainType : String)
  | message (wireType domainType : String)
  | repeated (element : TypeModel) (container : RepeatedContainer)
  | map (key value : TypeModel)
  /-- A wire message with a single field, which the domain class holds in the wrapper's place. -/
  | unfolded (wrapperType innerField : String) (inner : TypeModel)
deriving DecidableEq, Repr, Inhabited

namespace TypeModel

/-- The model with the value it ends in held as a reference, so that it can be absent. -/
def boxed : TypeModel → TypeModel
  | scalar s _ => scalar s true
  | unfolded wrapper field inner => unfolded wrapper field inner.boxed
  | model => model

/-- A type whose values cannot be absent in Java. -/
def isPrimitiveLike : TypeModel → Bool
  | scalar s boxed => s.isPrimitive && !boxed
  | unfolded _ _ inner => inner.isPrimitiveLike
  | _ => false

def isIdentity : TypeModel → Bool
  | scalar .. => true
  | _ => false

def containerType : RepeatedContainer → String
  | .list | .immutableList => "List"
  | .set | .immutableSet => "Set"
  | .sortedSet => "SortedSet"
  | .stream => "Stream"

/-- The Java type, as a declaration (`asArgument` false) or as a type argument, which must be a
reference type. -/
def typeText (asArgument : Bool) : TypeModel → String
  | scalar s boxed => if asArgument || boxed then s.boxedJavaType else s.javaType
  | enum _ domainType => domainType
  | message _ domainType => domainType
  | repeated element container =>
    containerType container ++ "<" ++ element.typeText true ++ ">"
  | map key value => "Map<" ++ key.typeText true ++ ", " ++ value.typeText true ++ ">"
  | unfolded _ _ inner => inner.typeText asArgument

def javaType (model : TypeModel) : String :=
  model.typeText false

def typeArgument (model : TypeModel) : String :=
  model.typeText true

end TypeModel

end WireMapper
