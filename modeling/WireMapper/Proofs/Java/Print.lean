import WireMapper.Java.Parser.Unit
import WireMapper.Proofs.Java.Identifier

/-!
Compilation units as plain Java source: what is written for each part of a unit, and the tokens it
is made of. The units that can be written so are those whose names are names in Java and whose types
say nothing that their kind takes for granted.
-/

namespace WireMapper.Java

/-- Words that name nothing: the keywords, and the word `sealed`, which is read as a modifier. -/
def reservedWords : List String :=
  ["abstract", "assert", "boolean", "break", "byte", "case", "catch", "char", "class", "const",
    "continue", "default", "do", "double", "else", "enum", "extends", "final", "finally", "float",
    "for", "goto", "if", "implements", "import", "instanceof", "int", "interface", "long", "native",
    "new", "package", "private", "protected", "public", "return", "sealed", "short", "static",
    "strictfp", "super", "switch", "synchronized", "this", "throw", "throws", "transient", "try",
    "void", "volatile", "while"]

structure IsPlainName (name : String) : Prop where
  isIdentifier : IsIdentifier name
  notReserved : name ∉ reservedWords

instance (name : String) : Decidable (IsPlainName name) :=
  decidable_of_iff (IsIdentifier name ∧ name ∉ reservedWords)
    ⟨fun h => ⟨h.1, h.2⟩, fun h => ⟨h.1, h.2⟩⟩

def IsPlainQualified (name : String) : Prop :=
  ∀ segment ∈ Text.split '.' name, IsPlainName segment

instance (name : String) : Decidable (IsPlainQualified name) :=
  inferInstanceAs (Decidable (∀ segment ∈ Text.split '.' name, IsPlainName segment))

/-- A field that a type of the given kind can declare with its modifiers written out. -/
structure FieldDecl.WellFormed (kind : TypeKind) (field : FieldDecl) : Prop where
  name : IsPlainName field.name
  ofInterface : kind = .interface → field.visibility = .public_ ∧ field.isStatic = true
  ofAnnotationType : kind = .annotationType → field.visibility = .public_

instance (kind : TypeKind) (field : FieldDecl) : Decidable (field.WellFormed kind) :=
  decidable_of_iff
    (IsPlainName field.name ∧
      (kind = .interface → field.visibility = .public_ ∧ field.isStatic = true) ∧
      (kind = .annotationType → field.visibility = .public_))
    ⟨fun h => ⟨h.1, h.2.1, h.2.2⟩, fun h => ⟨h.1, h.2, h.3⟩⟩

/-- A type whose names are names, whose fields suit its kind, and whose nested types are so too. -/
inductive TypeDecl.WellFormed : TypeDecl → Prop
  | intro (name : String) (kind : TypeKind) (superclass? : Option String)
      (fields : List FieldDecl) (nested : List TypeDecl) (hname : IsPlainName name)
      (hsuper : ∀ superclass, superclass? = some superclass →
        kind = .class_ ∧ IsPlainQualified superclass)
      (hfields : ∀ field ∈ fields, field.WellFormed kind)
      (hnested : ∀ t ∈ nested, t.WellFormed) :
      TypeDecl.WellFormed ⟨name, kind, superclass?, fields, nested⟩

structure CompilationUnit.WellFormed (unit : CompilationUnit) : Prop where
  package : ∀ name, unit.package? = some name → IsPlainQualified name
  imports : ∀ i ∈ unit.imports, IsPlainQualified i.path
  types : ∀ t ∈ unit.types, t.WellFormed

/-- The modifier that gives a visibility; package visibility has none. -/
def Visibility.source : Visibility → String
  | public_ => "public "
  | protected_ => "protected "
  | package => ""
  | private_ => "private "

def FieldDecl.source (field : FieldDecl) : String :=
  field.visibility.source ++ (if field.isStatic then "static " else "") ++ "int " ++ field.name ++
    ";\n"

def TypeKind.source : TypeKind → String
  | class_ => "class "
  | interface => "interface "
  | enum => "enum "
  | record => "record "
  | annotationType => "@interface "

/-- A declaration up to its first member. An enum's members come after its constants. -/
def TypeDecl.headSource (t : TypeDecl) : String :=
  t.kind.source ++ t.name ++ (if t.kind = .record then "()" else "") ++
    (t.superclass?.elim "" fun superclass => " extends " ++ superclass) ++ " \x7b\n" ++
    (if t.kind = .enum then ";\n" else "")

mutual

def TypeDecl.source : TypeDecl → String
  | ⟨name, kind, superclass?, fields, nested⟩ =>
    TypeDecl.headSource ⟨name, kind, superclass?, fields, nested⟩ ++
      String.join (fields.map FieldDecl.source) ++ TypeDecl.sources nested ++ "\x7d\n"

def TypeDecl.sources : List TypeDecl → String
  | [] => ""
  | t :: ts => t.source ++ TypeDecl.sources ts

end

def Import.source (i : Import) : String :=
  "import " ++ (if i.isStatic then "static " else "") ++ i.path ++
    (if i.isWildcard then ".*" else "") ++ ";\n"

def CompilationUnit.source (unit : CompilationUnit) : String :=
  (unit.package?.elim "" fun package => "package " ++ package ++ ";\n") ++
    String.join (unit.imports.map Import.source) ++ TypeDecl.sources unit.types

def dottedTokens : List String → List Token
  | [] => []
  | [segment] => [.ident segment]
  | segment :: segments => .ident segment :: .dot :: dottedTokens segments

def nameTokens (name : String) : List Token :=
  dottedTokens (Text.split '.' name)

def Visibility.tokens : Visibility → List Token
  | public_ => [.ident "public"]
  | protected_ => [.ident "protected"]
  | package => []
  | private_ => [.ident "private"]

def FieldDecl.modifierTokens (field : FieldDecl) : List Token :=
  field.visibility.tokens ++ if field.isStatic then [Token.ident "static"] else []

def FieldDecl.tokens (field : FieldDecl) : List Token :=
  field.modifierTokens ++ [Token.ident "int", .ident field.name, .semicolon]

def TypeKind.tokens : TypeKind → List Token
  | class_ => [.ident "class"]
  | interface => [.ident "interface"]
  | enum => [.ident "enum"]
  | record => [.ident "record"]
  | annotationType => [.atSign, .ident "interface"]

def TypeDecl.headTokens (t : TypeDecl) : List Token :=
  t.kind.tokens ++ Token.ident t.name ::
    ((if t.kind = .record then [Token.openParen, .closeParen] else []) ++
      (t.superclass?.elim [] fun superclass => Token.ident "extends" :: nameTokens superclass) ++
      Token.openBrace :: if t.kind = .enum then [Token.semicolon] else [])

mutual

def TypeDecl.tokens : TypeDecl → List Token
  | ⟨name, kind, superclass?, fields, nested⟩ =>
    TypeDecl.headTokens ⟨name, kind, superclass?, fields, nested⟩ ++
      (fields.flatMap FieldDecl.tokens ++ (TypeDecl.tokensOf nested ++ [Token.closeBrace]))

def TypeDecl.tokensOf : List TypeDecl → List Token
  | [] => []
  | t :: ts => t.tokens ++ TypeDecl.tokensOf ts

end

def Import.tokens (i : Import) : List Token :=
  Token.ident "import" ::
    ((if i.isStatic then [Token.ident "static"] else []) ++ nameTokens i.path ++
    (if i.isWildcard then [Token.dot, .other '*'] else []) ++ [Token.semicolon])

def CompilationUnit.tokens (unit : CompilationUnit) : List Token :=
  (unit.package?.elim [] fun package => Token.ident "package" ::
    (nameTokens package ++ [Token.semicolon])) ++
    (unit.imports.flatMap Import.tokens ++ TypeDecl.tokensOf unit.types)

end WireMapper.Java
