import WireMapper.Error
import WireMapper.FieldConversion
import WireMapper.Hierarchy.Cache
import WireMapper.Mapping.Nullability
import WireMapper.Schema.FieldModel

/-!
The mapping of one field: how the domain class declares it, how it is reached there, and the
fragments that copy it from one side to the other.
-/

namespace WireMapper.Mapping

open Hierarchy (Cache Resolution)

inductive Access where
  | resolved (resolution : Resolution)
  /-- It could not be told; the field is taken to be reached directly. -/
  | assumedDirect (cause : Hierarchy.Error)
deriving DecidableEq, Repr

def Access.needsAccessor : Access → Bool
  | resolved r => r.needsAccessor
  | assumedDirect _ => false

structure Identifier where
  /-- The field's name, or that of its getter if it is reached through accessors. -/
  name : String
  javaType : String
  marker? : Option Marker
deriving DecidableEq, Repr

structure DomainField where
  identifier : Identifier
  model : TypeModel
  nullable : Bool
  access : Access
deriving DecidableEq, Repr

def DomainField.needsAccessor (d : DomainField) : Bool :=
  d.access.needsAccessor

def DomainField.expression (d : DomainField) : String :=
  if d.needsAccessor then d.identifier.name ++ "()" else d.identifier.name

structure FieldMapping where
  /-- The name as the schema declares it. -/
  field : String
  number : Int
  kind : String
  domain : DomainField
  toWire : Fragment
  fromWire : Fragment
deriving DecidableEq, Repr

def FieldMapping.needsAccessor (m : FieldMapping) : Bool :=
  m.domain.needsAccessor

structure Generator where
  schema : Schema
  /-- Says how a class reaches one of its fields. -/
  ask : String → String → Except Hierarchy.Error Resolution
  policy : MarkerPolicy
  builderName : String := "builder"
  wireParameter : String := "grpc"

namespace Generator

variable (g : Generator)

/-- How the domain class of a message reaches a field, asked through the cache. What cannot be told
is taken for direct access, unless classes that extend each other in a cycle are the cause. -/
def access (m : Fin g.schema.size.messages) (f : Field g.schema.size) (cache : Cache) :
    Except Error Access × Cache :=
  match cache.query g.ask (g.schema.domainName m) f.generatedName with
  | (.ok r, cache) => (.ok (.resolved r), cache)
  | (.error e, cache) =>
    if e.isRecoverable then (.ok (.assumedDirect e), cache)
    else
      (.error (.resolution
        ("field " ++ f.generatedName ++ " of " ++ (g.schema.message m).fullName ++ ": " ++
          e.message)), cache)

/-- The model that a field is kept with: a nullable one is held as a reference. -/
def fieldModel (f : Field g.schema.size) : Except Error TypeModel := do
  let model ← g.schema.typeModel f
  return if g.schema.isNullable f && model.isPrimitiveLike then model.boxed else model

/-- The declaration of a field. Primitive types cannot be null and get no mark. -/
def identifier (m : Fin g.schema.size.messages) (f : Field g.schema.size) (model : TypeModel)
    (access : Access) : Identifier :=
  let marked := !model.isPrimitiveLike && g.policy.marks (g.schema.fileOf m)
  { name := if access.needsAccessor then f.getter else f.generatedName
    javaType := model.javaType
    marker? := if marked then some (.ofNullable (g.schema.isNullable f)) else none }

/-- The domain side of a field. Fields marked as unused have none. -/
def domainField (m : Fin g.schema.size.messages) (f : Field g.schema.size) (cache : Cache) :
    Except Error (Option DomainField) × Cache :=
  if f.options.unused then (.ok none, cache)
  else
    match g.fieldModel f with
    | .error e => (.error e, cache)
    | .ok model =>
      match g.access m f cache with
      | (.error e, cache) => (.error e, cache)
      | (.ok access, cache) =>
        (.ok (some ⟨g.identifier m f model access, model, g.schema.isNullable f, access⟩), cache)

def mapField (m : Fin g.schema.size.messages) (f : Field g.schema.size) (d : DomainField) :
    Except Error FieldMapping := do
  let conversion : FieldConversion :=
    ⟨d.model, f.name, d.nullable, (g.schema.message m).fullName⟩
  return {
    field := f.declaredName
    number := f.number
    kind := f.type.kindName
    domain := d
    toWire := ← conversion.toWire g.builderName d.expression
    fromWire := ← conversion.fromWire g.wireParameter }

end Generator

end WireMapper.Mapping
