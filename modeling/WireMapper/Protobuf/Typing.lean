import WireMapper.Protobuf.DefaultText
import WireMapper.Protobuf.Names
import WireMapper.Protobuf.Rules
import WireMapper.Protobuf.Shape

/-!
The types that the fields and extensions of a descriptor set turn out to have, once their names are
resolved, and the description of messages that follows from them.
-/

namespace WireMapper.Protobuf

inductive FieldKind (o : Outline) where
  | scalar (type : ScalarType)
  | enum (position : Fin o.enums.length)
  | message (position : Fin o.messages.length)
deriving DecidableEq, Repr

structure TypedField (o : Outline) where
  decl : FieldDecl
  kind : FieldKind o

structure TypedExtension (o : Outline) where
  fullName : String
  extendee : Fin o.messages.length
  field : TypedField o

structure Typing (o : Outline) where
  fields : Vector (List (TypedField o)) o.messages.length
  extensions : Vector (TypedExtension o) o.extensions.length

section

variable {o : Outline} (names : Names o)

def Names.message (file : o.Index) (scope name : String) :
    Except LinkFault (Fin o.messages.length) :=
  let accept : o.NameMeaning → Option (Fin o.messages.length)
    | .message m => some m
    | _ => none
  match names.resolve? accept file scope name with
  | some m => .ok m
  | none => .error (.unknownType scope name)

def Names.kind (file : o.Index) (scope : String) : DeclaredType → Except LinkFault (FieldKind o)
  | .scalar type => .ok (.scalar type)
  | .named name =>
    let accept : o.NameMeaning → Option (FieldKind o)
      | .message m => some (.message m)
      | .enum e => some (.enum e)
      | _ => none
    match names.resolve? accept file scope name with
    | some kind => .ok kind
    | none => .error (.unknownType scope name)

/-- A text that may be the default value of a field of a type. Messages have no default values. -/
def FieldKind.hasDefault (text : String) : FieldKind o → Bool
  | scalar type => type.hasDefault text
  | enum e => ((o.enums.get e).decl.values.map (·.name)).contains text
  | message _ => false

/-- A field of a scope with its type, which its default value must fit. -/
def Names.field (file : o.Index) (scope : String) (f : FieldDecl) :
    Except LinkFault (TypedField o) := do
  let kind ← names.kind file scope f.type
  match f.default? with
  | none => return ⟨f, kind⟩
  | some text =>
    if kind.hasDefault text then return ⟨f, kind⟩
    else .error (.unfitDefault (qualify scope f.name) text)

/-- An extension, whose number must be left to extensions by the message that it extends. -/
def Names.extension (x : Declared o.files.length FieldDecl) :
    Except LinkFault (TypedExtension o) := do
  let extendee ← names.message x.file x.scope (x.decl.extendee?.getD "")
  let extended := (o.messages.get extendee).decl
  if !isFieldNumber x.decl.number then .error (.numberOutOfRange x.fullName x.decl.number)
  if !extended.isExtensionNumber x.decl.number then
    .error (.notAnExtensionNumber x.fullName x.decl.number)
  if extended.isReserved x.decl.number then .error (.reservedNumber x.fullName x.decl.number)
  return { fullName := x.fullName, extendee, field := ← names.field x.file x.scope x.decl }

def vectorOf {α : Type} (items : List α) : Vector α items.length :=
  ⟨items.toArray, by simp⟩

def Names.typing : Except LinkFault (Typing o) := do
  return {
    fields := ← (vectorOf o.messages).mapM fun m =>
      m.decl.fields.mapM (names.field m.file m.fullName)
    extensions := ← (vectorOf o.extensions).mapM names.extension }

end

/-- A message of a set as something to be read. The entries of a map are read for a key and a value
only, whatever else they declare. -/
structure MessageShape (o : Outline) where
  position : Fin o.messages.length
  isEntry : Bool
deriving DecidableEq

namespace Typing

variable {o : Outline} (t : Typing o)

def content (f : TypedField o) : Content (MessageShape o) :=
  match f.kind with
  | .scalar type => .scalar type
  | .enum e => .enum ((o.enums.get e).decl.values.map fun v => (v.name, v.number))
  | .message m =>
    if f.decl.label = .repeated ∧ (o.messages.get m).decl.isMapEntry then .message ⟨m, true⟩
    else if f.decl.isGroup then .group ⟨m, false⟩
    else .message ⟨m, false⟩

def shape (f : TypedField o) : FieldShape (MessageShape o) :=
  { name := f.decl.name
    number := f.decl.number.toNat
    isRepeated := f.decl.label = .repeated
    content := content f }

def ownShapes (m : MessageShape o) : List (FieldShape (MessageShape o)) :=
  let own := (t.fields.get m.position).map shape
  if m.isEntry then own.filter (·.number ≤ 2) else own

/-- The fields of a message and of its extensions. -/
def shapes : Shapes (MessageShape o) := fun m =>
  let extensions := t.extensions.toList.filter fun x => !m.isEntry && x.extendee = m.position
  t.ownShapes m ++ extensions.map fun x => shape x.field

end Typing

end WireMapper.Protobuf
