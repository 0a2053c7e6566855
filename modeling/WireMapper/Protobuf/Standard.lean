import WireMapper.Protobuf.Shape

/-!
The messages that schemas themselves are written down in, from a set of files down to the parts of
an option. A descriptor set is read as one of these messages, and options are read as these where
the set does not declare the options' messages itself.
-/

namespace WireMapper.Protobuf

inductive StandardType where
  | fileSet | file | message | extensionRange | reservedRange | field | oneof
  | enum | enumReservedRange | enumValue | service | method | sourceInfo | sourceLocation
  | fileOptions | messageOptions | fieldOptions | oneofOptions | enumOptions | enumValueOptions
  | serviceOptions | methodOptions | extensionRangeOptions
  | extensionDeclaration | editionDefault | featureSet | uninterpretedOption | namePart
deriving DecidableEq, Repr

namespace StandardType

def scalar (type : ScalarType) (name : String) (number : Nat) : FieldShape StandardType :=
  ⟨name, number, false, .scalar type⟩

def flag : String → Nat → FieldShape StandardType := scalar .bool

def text : String → Nat → FieldShape StandardType := scalar .string

def int32 : String → Nat → FieldShape StandardType := scalar .int32

def texts (name : String) (number : Nat) : FieldShape StandardType :=
  ⟨name, number, true, .scalar .string⟩

def integers (name : String) (number : Nat) : FieldShape StandardType :=
  ⟨name, number, true, .scalar .int32⟩

def one (type : StandardType) (name : String) (number : Nat) : FieldShape StandardType :=
  ⟨name, number, false, .message type⟩

def many (type : StandardType) (name : String) (number : Nat) : FieldShape StandardType :=
  ⟨name, number, true, .message type⟩

def choice (name : String) (number : Nat) (values : List (String × Int)) :
    FieldShape StandardType :=
  ⟨name, number, false, .enum values⟩

/-- What every message of options has besides its own fields: options that are not interpreted. -/
def uninterpreted : FieldShape StandardType :=
  many uninterpretedOption "uninterpreted_option" 999

def targets : FieldShape StandardType :=
  ⟨"targets", 19, true, .enum
    [("TARGET_TYPE_UNKNOWN", 0), ("TARGET_TYPE_FILE", 1), ("TARGET_TYPE_EXTENSION_RANGE", 2),
      ("TARGET_TYPE_MESSAGE", 3), ("TARGET_TYPE_FIELD", 4), ("TARGET_TYPE_ONEOF", 5),
      ("TARGET_TYPE_ENUM", 6), ("TARGET_TYPE_ENUM_ENTRY", 7), ("TARGET_TYPE_SERVICE", 8),
      ("TARGET_TYPE_METHOD", 9)]⟩

def fields : Shapes StandardType
  | fileSet => [many file "file" 1]
  | file =>
    [text "name" 1, text "package" 2, texts "dependency" 3, integers "public_dependency" 10,
      integers "weak_dependency" 11, many message "message_type" 4, many enum "enum_type" 5,
      many service "service" 6, many field "extension" 7, one fileOptions "options" 8,
      one sourceInfo "source_code_info" 9, text "syntax" 12]
  | message =>
    [text "name" 1, many field "field" 2, many field "extension" 6, many message "nested_type" 3,
      many enum "enum_type" 4, many extensionRange "extension_range" 5, many oneof "oneof_decl" 8,
      one messageOptions "options" 7, many reservedRange "reserved_range" 9,
      texts "reserved_name" 10]
  | extensionRange => [int32 "start" 1, int32 "end" 2, one extensionRangeOptions "options" 3]
  | reservedRange | enumReservedRange => [int32 "start" 1, int32 "end" 2]
  | field =>
    [text "name" 1, int32 "number" 3, int32 "label" 4, int32 "type" 5, text "type_name" 6,
      text "extendee" 2, text "default_value" 7, int32 "oneof_index" 9, text "json_name" 10,
      one fieldOptions "options" 8, flag "proto3_optional" 17]
  | oneof => [text "name" 1, one oneofOptions "options" 2]
  | enum =>
    [text "name" 1, many enumValue "value" 2, one enumOptions "options" 3,
      many enumReservedRange "reserved_range" 4, texts "reserved_name" 5]
  | enumValue => [text "name" 1, int32 "number" 2, one enumValueOptions "options" 3]
  | service => [text "name" 1, many method "method" 2, one serviceOptions "options" 3]
  | method =>
    [text "name" 1, text "input_type" 2, text "output_type" 3, one methodOptions "options" 4,
      flag "client_streaming" 5, flag "server_streaming" 6]
  | sourceInfo => [many sourceLocation "location" 1]
  | sourceLocation =>
    [integers "path" 1, integers "span" 2, text "leading_comments" 3, text "trailing_comments" 4,
      texts "leading_detached_comments" 6]
  | fileOptions =>
    [text "java_package" 1, text "java_outer_classname" 8, flag "java_multiple_files" 10,
      flag "java_generate_equals_and_hash" 20, flag "java_string_check_utf8" 27,
      choice "optimize_for" 9 [("SPEED", 1), ("CODE_SIZE", 2), ("LITE_RUNTIME", 3)],
      text "go_package" 11, flag "cc_generic_services" 16, flag "java_generic_services" 17,
      flag "py_generic_services" 18, flag "php_generic_services" 42, flag "deprecated" 23,
      flag "cc_enable_arenas" 31, text "objc_class_prefix" 36, text "csharp_namespace" 37,
      text "swift_prefix" 39, text "php_class_prefix" 40, text "php_namespace" 41,
      text "php_metadata_namespace" 44, text "ruby_package" 45, one featureSet "features" 50,
      uninterpreted]
  | messageOptions =>
    [flag "message_set_wire_format" 1, flag "no_standard_descriptor_accessor" 2,
      flag "deprecated" 3, flag "map_entry" 7, flag "deprecated_legacy_json_field_conflicts" 11,
      one featureSet "features" 12, uninterpreted]
  | fieldOptions =>
    [choice "ctype" 1 [("STRING", 0), ("CORD", 1), ("STRING_PIECE", 2)], flag "packed" 2,
      choice "jstype" 6 [("JS_NORMAL", 0), ("JS_STRING", 1), ("JS_NUMBER", 2)], flag "lazy" 5,
      flag "unverified_lazy" 15, flag "deprecated" 3, flag "weak" 10, flag "debug_redact" 16,
      choice "retention" 17
        [("RETENTION_UNKNOWN", 0), ("RETENTION_RUNTIME", 1), ("RETENTION_SOURCE", 2)],
      targets, many editionDefault "edition_defaults" 20, one featureSet "features" 21,
      uninterpreted]
  | oneofOptions => [one featureSet "features" 1, uninterpreted]
  | enumOptions =>
    [flag "allow_alias" 2, flag "deprecated" 3, flag "deprecated_legacy_json_field_conflicts" 6,
      one featureSet "features" 7, uninterpreted]
  | enumValueOptions =>
    [flag "deprecated" 1, one featureSet "features" 2, flag "debug_redact" 3, uninterpreted]
  | serviceOptions => [one featureSet "features" 34, flag "deprecated" 33, uninterpreted]
  | methodOptions =>
    [flag "deprecated" 33,
      choice "idempotency_level" 34
        [("IDEMPOTENCY_UNKNOWN", 0), ("NO_SIDE_EFFECTS", 1), ("IDEMPOTENT", 2)],
      one featureSet "features" 35, uninterpreted]
  | extensionRangeOptions =>
    [uninterpreted, many extensionDeclaration "declaration" 2, one featureSet "features" 50,
      choice "verification" 3 [("DECLARATION", 0), ("UNVERIFIED", 1)]]
  | extensionDeclaration =>
    [int32 "number" 1, text "full_name" 2, text "type" 3, flag "reserved" 5, flag "repeated" 6]
  | editionDefault => [int32 "edition" 3, text "value" 2]
  | featureSet =>
    [choice "field_presence" 1
        [("FIELD_PRESENCE_UNKNOWN", 0), ("EXPLICIT", 1), ("IMPLICIT", 2), ("LEGACY_REQUIRED", 3)],
      choice "enum_type" 2 [("ENUM_TYPE_UNKNOWN", 0), ("OPEN", 1), ("CLOSED", 2)],
      choice "repeated_field_encoding" 3
        [("REPEATED_FIELD_ENCODING_UNKNOWN", 0), ("PACKED", 1), ("EXPANDED", 2)],
      choice "utf8_validation" 4 [("UTF8_VALIDATION_UNKNOWN", 0), ("VERIFY", 2), ("NONE", 3)],
      choice "message_encoding" 5
        [("MESSAGE_ENCODING_UNKNOWN", 0), ("LENGTH_PREFIXED", 1), ("DELIMITED", 2)],
      choice "json_format" 6
        [("JSON_FORMAT_UNKNOWN", 0), ("ALLOW", 1), ("LEGACY_BEST_EFFORT", 2)]]
  | uninterpretedOption =>
    [many namePart "name" 2, text "identifier_value" 3, scalar .uint64 "positive_int_value" 4,
      scalar .int64 "negative_int_value" 5, scalar .double "double_value" 6,
      scalar .bytes "string_value" 7, text "aggregate_value" 8]
  | namePart => [text "name_part" 1, flag "is_extension" 2]

end StandardType

end WireMapper.Protobuf
