import WireMapper.Protobuf.LinkFault
import WireMapper.Protobuf.Outline
import WireMapper.Text.Pieces

/-!
The names of a descriptor set and what they stand for. Everything that is declared shares one name
space with the packages. A relative name is looked for from its scope outwards, and must be declared
in a file that the referring file sees: itself, its imports, and what these import publicly.
-/

namespace WireMapper.Protobuf

open WireMapper.Text (split join)

inductive Meaning (messages enums extensions : Nat) where
  | package
  | message (position : Fin messages)
  | enum (position : Fin enums)
  | extension (position : Fin extensions)
  | service
  /-- A field, a oneof, an enum value or a method. -/
  | member
deriving DecidableEq, Repr

/-- Things whose names other names can start with. -/
def Meaning.isNamespace {m e x : Nat} : Meaning m e x → Bool
  | extension _ | member => false
  | _ => true

namespace Outline

abbrev Index (o : Outline) := Fin o.files.length

abbrev NameMeaning (o : Outline) :=
  Meaning o.messages.length o.enums.length o.extensions.length

structure Symbol (o : Outline) where
  name : String
  file : o.Index
  meaning : o.NameMeaning

def symbols (o : Outline) : List o.Symbol :=
  (o.messages.mapFinIdx fun i m h => ⟨m.fullName, m.file, .message ⟨i, h⟩⟩) ++
    (o.enums.mapFinIdx fun i e h => ⟨e.fullName, e.file, .enum ⟨i, h⟩⟩) ++
    (o.services.map fun s => ⟨s.fullName, s.file, .service⟩) ++
    (o.extensions.mapFinIdx fun i x h => ⟨x.fullName, x.file, .extension ⟨i, h⟩⟩) ++
    (o.messages.flatMap fun m =>
      (m.decl.fields.map (·.name) ++ m.decl.oneofs.map (·.name)).map fun name =>
        ⟨qualify m.fullName name, m.file, .member⟩) ++
    (o.enums.flatMap fun e =>
      e.decl.values.map fun v => ⟨qualify e.scope v.name, e.file, .member⟩) ++
    (o.services.flatMap fun s =>
      s.decl.methods.map fun m => ⟨qualify s.fullName m.name, s.file, .member⟩)

/-- The dotted names that a dotted name starts with, shortest first, itself included. -/
def dottedPrefixes (name : String) : List String :=
  if name = "" then []
  else
    let segments := split '.' name
    (List.range segments.length).map fun k => join '.' (segments.take (k + 1))

def packages (o : Outline) : List String :=
  (o.files.flatMap fun f => dottedPrefixes f.package).eraseDups

def import? (o : Outline) (name : String) : Option o.Index :=
  o.files.findFinIdx? (·.name = name)

def imports (o : Outline) (file : FileDecl) : Except LinkFault (List o.Index × List o.Index) := do
  let all ← file.dependencies.mapM fun name =>
    match o.import? name with
    | some i => .ok i
    | none => .error (.missingImport file.name name)
  (file.publicDependencies ++ file.weakDependencies).forM fun index =>
    if 0 ≤ index ∧ index.toNat < all.length then .ok ()
    else .error (.missingImportIndex file.name index)
  return (all,
    (all.zipIdx.filter fun (_, k) => file.publicDependencies.contains (k : Int)).map (·.1))

/-- The files that are seen once those that a seen file imports publicly are added. One that is new
is added without its own public imports; one that was seen already passes them on. A walk that goes
from file to file is over after as many steps as there are files. -/
def addPublic {o : Outline} (publics : o.Index → List o.Index) :
    Nat → List o.Index → o.Index → List o.Index
  | 0, seen, _ => seen
  | steps + 1, seen, file =>
    (publics file).foldl
      (fun seen imported =>
        if imported ∈ seen then addPublic publics steps seen imported else imported :: seen)
      seen

end Outline

structure Names (o : Outline) where
  symbols : List o.Symbol
  packages : List String
  visible : Vector (List o.Index) o.files.length

namespace Names

/-- The files that each file sees: itself, each import, and after each import its public ones. -/
def visibility (o : Outline) : Except LinkFault (Vector (List o.Index) o.files.length) := do
  let imports ← (Vector.ofFn fun i : o.Index => o.files.get i).mapM o.imports
  let publics (i : o.Index) := (imports.get i).2
  return Vector.ofFn fun i =>
    (imports.get i).1.foldl
      (fun seen file => Outline.addPublic publics o.files.length (file :: seen) file) [i]

def repeated? {α : Type} [DecidableEq α] : List α → Option α
  | [] => none
  | x :: xs => if x ∈ xs then some x else repeated? xs

/-- The names of a set, none of which may be declared twice. -/
def ofOutline (o : Outline) : Except LinkFault (Names o) := do
  if let some file := repeated? (o.files.map (·.name)) then .error (.repeatedFile file)
  let names : Names o := ⟨o.symbols, o.packages, ← visibility o⟩
  match repeated? (names.packages ++ names.symbols.map (·.name)) with
  | some name => .error (.repeatedName name)
  | none => return names

variable {o : Outline}

def meaning? (names : Names o) (name : String) : Option o.NameMeaning :=
  match names.symbols.find? (·.name = name) with
  | some symbol => some symbol.meaning
  | none => if name ∈ names.packages then some .package else none

/-- What a full name stands for where a file sees it. Packages are seen everywhere. -/
def seen? (names : Names o) (file : o.Index) (name : String) : Option o.NameMeaning :=
  match names.symbols.find? (·.name = name) with
  | some symbol => if symbol.file ∈ names.visible.get file then some symbol.meaning else none
  | none => if name ∈ names.packages then some .package else none

def scopesFrom (scope : String) : List String :=
  (Outline.dottedPrefixes scope).reverse ++ [""]

/-- What a name stands for where it is written: in a file and a scope. A name after a dot is a full
one. The first segment of a dotted name is looked for alone, in all files, and where it stands for
something that holds names the rest must be found. `accept` says what the name may stand for; a name
without dots is looked for further out while it stands for something else. -/
def resolve? {α : Type} (names : Names o) (accept : o.NameMeaning → Option α) (file : o.Index)
    (scope name : String) : Option α :=
  let found (s : String) := (names.seen? file s).bind accept
  match split '.' name with
  | "" :: rest@(_ :: _) => found (join '.' rest)
  | first :: _ :: _ =>
    let holds (s : String) := (names.meaning? (qualify s first)).any (·.isNamespace)
    ((scopesFrom scope).find? holds).bind fun s => found (qualify s name)
  | _ => (scopesFrom scope).findSome? fun s => found (qualify s name)

end Names

end WireMapper.Protobuf
