import WireMapper.Json
import WireMapper.TypeModel

/-!
Type models in reports: the kind comes first, then what the kind needs.
-/

namespace WireMapper.TypeModel

def toJson : TypeModel → Json
  | scalar s boxed =>
    .object [("kind", .string "primitive"), ("scalar", .string s.name), ("boxed", .bool boxed)]
  | enum wireType domainType =>
    .object [("kind", .string "enum"), ("wire_type", .string wireType),
      ("domain_type", .string domainType)]
  | message wireType domainType =>
    .object [("kind", .string "message"), ("wire_type", .string wireType),
      ("domain_type", .string domainType)]
  | repeated element container =>
    .object [("kind", .string "repeated"), ("element", element.toJson),
      ("container", .string container.name)]
  | map key value =>
    .object [("kind", .string "map"), ("key", key.toJson), ("value", value.toJson)]
  | unfolded wrapperType innerField inner =>
    .object [("kind", .string "unfolded"), ("wrapper_type", .string wrapperType),
      ("inner_field", .string innerField), ("inner", inner.toJson)]

end WireMapper.TypeModel
