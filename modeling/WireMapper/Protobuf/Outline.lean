import WireMapper.Protobuf.Declaration

/-!
Where the declarations of a descriptor set stand: the file, the messages around them, and the full
name that follows from both. Nested declarations are listed beside the others, after the message
that holds them.
-/

namespace WireMapper.Protobuf

/-- A name inside a scope. The outermost scope has the empty name. -/
def qualify (scope name : String) : String :=
  if scope = "" then name else scope ++ "." ++ name

structure Declared (n : Nat) (α : Type) where
  decl : α
  file : Fin n
  /-- The full name of the message around it, or else the package. -/
  scope : String
  /-- The names of the messages around it, outermost first. -/
  outer : List String
  fullName : String

mutual

def outlineMessage {n : Nat} (file : Fin n) (scope : String) (outer : List String) :
    MessageDecl → List (Declared n MessageDecl)
  | m@⟨name, _, _, nested, _, _, _, _, _, _⟩ =>
    ⟨m, file, scope, outer, qualify scope name⟩ ::
      outlineMessages file (qualify scope name) (outer ++ [name]) nested

def outlineMessages {n : Nat} (file : Fin n) (scope : String) (outer : List String) :
    List MessageDecl → List (Declared n MessageDecl)
  | [] => []
  | m :: ms => outlineMessage file scope outer m ++ outlineMessages file scope outer ms

end

/-- Everything that the files of a set declare, by kind. Extensions are in the order of the files,
and in a file those inside messages come first. -/
structure Outline where
  files : List FileDecl
  messages : List (Declared files.length MessageDecl)
  enums : List (Declared files.length EnumDecl)
  extensions : List (Declared files.length FieldDecl)
  services : List (Declared files.length ServiceDecl)

namespace Outline

/-- What a file declares at its top level, with the file's package as scope. -/
def atTop {α : Type} (files : List FileDecl) (name : α → String) (declared : FileDecl → List α)
    (i : Fin files.length) : List (Declared files.length α) :=
  (declared (files.get i)).map fun decl =>
    ⟨decl, i, (files.get i).package, [], qualify (files.get i).package (name decl)⟩

def inMessages {n : Nat} {α : Type} (messages : List (Declared n MessageDecl)) (name : α → String)
    (declared : MessageDecl → List α) : List (Declared n α) :=
  messages.flatMap fun m =>
    (declared m.decl).map fun decl =>
      ⟨decl, m.file, m.fullName, m.outer ++ [m.decl.name], qualify m.fullName (name decl)⟩

def ofFiles (files : List FileDecl) : Outline :=
  let indices := List.finRange files.length
  let messagesOf (i : Fin files.length) :=
    outlineMessages i (files.get i).package [] (files.get i).messages
  let messages := indices.flatMap messagesOf
  { files
    messages
    enums := indices.flatMap (atTop files (·.name) (·.enums)) ++
      inMessages messages (·.name) (·.enums)
    extensions := indices.flatMap fun i =>
      inMessages (messagesOf i) (·.name) (·.extensions) ++
        atTop files (·.name) (·.extensions) i
    services := indices.flatMap (atTop files (·.name) (·.services)) }

end Outline

end WireMapper.Protobuf
