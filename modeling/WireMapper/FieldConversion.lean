import WireMapper.Error
import WireMapper.Fragment
import WireMapper.TypeModel.Conversion

/-!
The fragments that copy one field between the two classes. A field that can be absent is copied only
when it is there, so its type must be one that has an absent value.
-/

namespace WireMapper

/-- A field to be converted: its type, its name on the wire, whether it can be absent, and the
message that errors name. -/
structure FieldConversion where
  model : TypeModel
  field : String
  nullable : Bool
  message : String := "unknown message"

namespace FieldConversion

open Java (Expr)

def accessors (c : FieldConversion) : Accessors :=
  c.model.accessors c.field

def primitiveError (c : FieldConversion) : Error :=
  .contractViolation c.message c.field
    ("nullable conversion requested for primitive type " ++ c.model.javaType)

/-- The call that sets the field to a converted value. Without a builder the call is written as a
link of a chain. -/
def setterCall (c : FieldConversion) (builder value : String) : Expr :=
  let converted := c.model.toWireExpr (.source value) 0
  if builder = "" then .chained c.accessors.setter [converted]
  else .call (.source builder) c.accessors.setter [converted]

def toWire (c : FieldConversion) (builder value : String) : Except Error Fragment :=
  if c.nullable && c.model.isPrimitiveLike then .error c.primitiveError
  else
    let call := (c.setterCall builder value).render
    if c.nullable then .ok (.guarded (value ++ " != null") (.ofStatement call))
    else if builder = "" then .ok (.expression call)
    else .ok (.ofStatement call)

def fromWire (c : FieldConversion) (wire : String) : Except Error Fragment :=
  if c.nullable && c.model.isPrimitiveLike then .error c.primitiveError
  else
    let converted := c.model.fromWireExpr (.call (.source wire) c.accessors.getter []) 0
    if c.nullable then
      let present := Expr.call (.source wire) c.accessors.has []
      .ok (.expression (Expr.conditional present converted (.source "null")).render)
    else
      .ok (.expression converted.render)

end FieldConversion

end WireMapper
