import WireMapper.Protobuf.Standard
import WireMapper.Protobuf.Typing

/-!
The options of declarations as typed values. Options are a message, which a set may declare itself;
it is read by that declaration, with the extensions that the set declares, or else by the standard
one. An option that was kept as it was written is looked up by name and becomes a value like the
others.
-/

namespace WireMapper.Protobuf

inductive OptionTarget where
  | file | message | field | oneof | extensionRange | enum | enumValue | service | method
deriving DecidableEq, Repr

namespace OptionTarget

def messageName : OptionTarget → String
  | file => "google.protobuf.FileOptions"
  | message => "google.protobuf.MessageOptions"
  | field => "google.protobuf.FieldOptions"
  | oneof => "google.protobuf.OneofOptions"
  | extensionRange => "google.protobuf.ExtensionRangeOptions"
  | enum => "google.protobuf.EnumOptions"
  | enumValue => "google.protobuf.EnumValueOptions"
  | service => "google.protobuf.ServiceOptions"
  | method => "google.protobuf.MethodOptions"

def standardType : OptionTarget → StandardType
  | file => .fileOptions
  | message => .messageOptions
  | field => .fieldOptions
  | oneof => .oneofOptions
  | extensionRange => .extensionRangeOptions
  | enum => .enumOptions
  | enumValue => .enumValueOptions
  | service => .serviceOptions
  | method => .methodOptions

end OptionTarget

/-- The literal that an option was given, as a value of what its field holds. A message cannot be
given so. -/
def UninterpretedOption.value? {α : Type} (u : UninterpretedOption) : Content α → Option TypedValue
  | .scalar .bool =>
    match u.identifier? with
    | some "true" => some (.flag true)
    | some "false" => some (.flag false)
    | _ => none
  | .scalar .string => (u.string?.bind decodeText?).map .text
  | .scalar .bytes => u.string?.map fun _ => .plain
  | .scalar .float | .scalar .double =>
    if u.hasDouble || u.integer?.isSome || u.identifier? = some "inf" || u.identifier? = some "nan"
    then some .plain else none
  | .scalar type =>
    match u.integer?, type.integers? with
    | some n, some (low, high) => if low ≤ n ∧ n < high then some .plain else none
    | _, _ => none
  | .enum values => (u.identifier?.bind fun name => values.lookup name).map .choice
  | .message _ | .group _ => none

def isSet : List Nat → Fields → Bool
  | [], _ => true
  | number :: path, fields =>
    (fields.filter (·.1 = number)).any fun field => isSet path field.2.fields

def valueAt (path : List Nat) (value : TypedValue) : Fields :=
  match path with
  | [] => value.fields
  | [number] => [(number, value)]
  | number :: path => [(number, .message (valueAt path value))]

structure OptionNames (α : Type) where
  shapes : Shapes α
  field? : α → String → Option (FieldShape α)
  extension? : α → String → Option (FieldShape α)

namespace OptionNames

variable {α : Type} (names : OptionNames α)

/-- The fields that the parts of a name lead through, starting in a message. On the way there must
be messages that are not repeated. -/
def path? : α → List NamePart → Option (List (FieldShape α))
  | _, [] => some []
  | type, part :: parts => do
    let field ←
      if part.isExtension then names.extension? type part.text else names.field? type part.text
    if parts.isEmpty then return [field]
    else
      match field.isRepeated, field.content with
      | false, .message inner => return field :: (← path? inner parts)
      | false, .group inner => return field :: (← path? inner parts)
      | _, _ => none

def nameText (parts : List NamePart) : String :=
  ".".intercalate
    (parts.map fun part => if part.isExtension then "(" ++ part.text ++ ")" else part.text)

/-- Adds an option to the values of a declaration's options. Only a repeated field may be given
twice. -/
def set (type : α) (declaration : String) (fields : Fields) (u : UninterpretedOption) :
    Except LinkFault Fields := do
  let fault (kind : String → String → LinkFault) : Except LinkFault Fields :=
    .error (kind declaration (nameText u.name))
  match names.path? type u.name with
  | none => fault .unknownOption
  | some path =>
    match path.getLast? with
    | none => return fields
    | some last =>
      let numbers := path.map (·.number)
      if !last.isRepeated && isSet numbers fields then fault .repeatedOption
      else
        match u.value? last.content with
        | none => fault .unfitOption
        | some value => return fields ++ valueAt numbers value

/-- The values of a declaration's options, but for those of repeated fields. -/
def read (type : α) (declaration : String) (options : Options) : Except LinkFault Fields := do
  let fields ←
    match names.shapes.read nestingLimit type options.records with
    | .ok fields => .ok fields
    | .error fault => .error (.unreadableOptions declaration fault)
  let fields ← options.uninterpreted.foldlM (names.set type declaration) fields
  return fields.filter fun (number, _) =>
    (names.shapes.field? type number).any (!·.isRepeated)

def standard : OptionNames StandardType where
  shapes := StandardType.fields
  field? type name := (StandardType.fields type).find? (·.name = name)
  extension? _ _ := none

def declared {o : Outline} (names : Names o) (typing : Typing o) (file : o.Index) (scope : String) :
    OptionNames (MessageShape o) where
  shapes := typing.shapes
  field? m name := (typing.ownShapes m).find? (·.name = name)
  extension? m name := do
    let accept : o.NameMeaning → Option (Fin o.extensions.length)
      | .extension x => some x
      | _ => none
    let x := typing.extensions.get (← names.resolve? accept file scope name)
    if x.extendee = m.position then some (Typing.shape x.field) else none

end OptionNames

def Typing.optionValues {o : Outline} (typing : Typing o) (names : Names o) (target : OptionTarget)
    (file : o.Index) (declaration : String) (options : Options) : Except LinkFault Fields :=
  match o.messages.findFinIdx? (·.fullName = target.messageName) with
  | some m =>
      (OptionNames.declared names typing file declaration).read ⟨m, false⟩ declaration options
  | none => OptionNames.standard.read target.standardType declaration options

end WireMapper.Protobuf
