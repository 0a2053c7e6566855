import WireMapper.Mapping.Message
import WireMapper.TypeModel.Json

/-!
Mappings in JSON reports.
-/

namespace WireMapper

def Fragment.toJson : Fragment → Json
  | expression code => .object [("form", .string "expression"), ("code", .string code)]
  | statement code => .object [("form", .string "statement"), ("code", .string code)]

namespace Mapping

def Access.toJson : Access → Json
  | resolved r => .object (("status", .string "resolved") :: r.members)
  | assumedDirect e =>
    .object [("status", .string "defaulted"), ("code", .number e.code),
      ("reason", .string e.message)]

/-- A declaration without a mark has no member for it. -/
def Identifier.toJson (i : Identifier) : Json :=
  .object ([("name", .string i.name), ("java_type", .string i.javaType)] ++
    i.marker?.toList.map fun marker => ("marker", .string marker.name))

def FieldMapping.toJson (m : FieldMapping) : Json :=
  .object [("field", .string m.field), ("number", .number m.number), ("kind", .string m.kind),
    ("identifier", m.domain.identifier.toJson), ("nullable", .bool m.domain.nullable),
    ("needs_accessor", .bool m.needsAccessor), ("visibility", m.domain.access.toJson),
    ("type_model", m.domain.model.toJson), ("to_wire", m.toWire.toJson),
    ("from_wire", m.fromWire.toJson)]

def Diagnostic.toJson (d : Diagnostic) : Json :=
  .object [("severity", .string d.severity.name), ("message", .string d.message),
    ("field", .string d.field), ("code", .number d.code), ("detail", .string d.detail)]

def MessageMapping.toJson (m : MessageMapping) : Json :=
  .object [("message", .string m.message), ("domain_class", .string m.domainClass),
    ("fields", .array (m.fields.map (·.toJson))), ("skipped", .array (m.skipped.map .string)),
    ("diagnostics", .array (m.diagnostics.map (·.toJson)))]

end Mapping

end WireMapper
