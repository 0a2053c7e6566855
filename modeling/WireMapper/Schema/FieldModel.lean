import WireMapper.Error
import WireMapper.Schema.Unfolding

/-!
The type model of a field. A wrapper is unfolded unless that is being done already: a wrapper inside
itself stands for a message like any other.
-/

namespace WireMapper.Schema

variable (s : Schema)

def messageType (f : Field s.size) : Except Error (Fin s.size.messages) :=
  match f.type with
  | .message m => .ok m
  | _ => .error (.schema ("field " ++ f.fullName ++ " is not a message field"))

def enumType (f : Field s.size) : Except Error (Fin s.size.enums) :=
  match f.type with
  | .enum e => .ok e
  | _ => .error (.schema ("field " ++ f.fullName ++ " is not an enum field"))

def unfoldedField (f : Field s.size) : Except Error (Field s.size) :=
  match s.unfolded? f with
  | some inner => .ok inner
  | none => .error (.schema ("field " ++ f.fullName ++ " is not unfolded"))

def entryField (entry : Fin s.size.messages) (name : String) : Except Error (Field s.size) :=
  match (s.message entry).field? name with
  | some field => .ok field
  | none =>
    .error (.schema
      ("map entry " ++ (s.message entry).fullName ++ " has no " ++ name ++ " field"))

/-- The model of a field, given the models of its types: a map is made of the types of its entries'
fields, and a collection of the type of its elements. Both hold references only. -/
def shapeModel (single : FieldType s.size → Except Error TypeModel) (f : Field s.size) :
    Except Error TypeModel :=
  match f.isRepeated, f.type with
  | false, type => single type
  | true, .message entry =>
    if (s.message entry).isMapEntry then do
      let key ← single (← s.entryField entry "key").type
      let value ← single (← s.entryField entry "value").type
      return .map key.boxed value.boxed
    else do
      return .repeated (← single (.message entry)).boxed f.options.container
  | true, type => do
    return .repeated (← single type).boxed f.options.container

/-- The model of a type; `folded` holds the wrappers that are not being unfolded. What can be absent
inside a wrapper is held as a reference. -/
def typeModelFrom (folded : List (Fin s.size.messages)) (type : FieldType s.size) :
    Except Error TypeModel :=
  match type with
  | .scalar scalar => .ok (.scalar scalar false)
  | .enum e => .ok (.enum (s.enum e).javaName (s.enumDomainName e))
  | .message m =>
    match (s.message m).wrapped? with
    | some inner =>
      if m ∈ folded then do
        let model ← s.shapeModel (fun type => typeModelFrom (unvisitedAfter m folded) type) inner
        return .unfolded (s.message m).javaName inner.declaredName
          (if s.isNullable inner then model.boxed else model)
      else
        .ok (.message (s.message m).javaName (s.domainName m))
    | none => .ok (.message (s.message m).javaName (s.domainName m))
termination_by folded.length
decreasing_by exact length_unvisitedAfter_lt ‹_›

def typeModel (f : Field s.size) : Except Error TypeModel :=
  s.shapeModel (s.typeModelFrom (List.finRange s.size.messages)) f

end WireMapper.Schema
