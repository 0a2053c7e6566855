import WireMapper.Path

/-!
A file system at one moment. Files and directories are known by their place, the names on the way to
them; the place of an absolute path starts with the root slash, and relative paths start at the
place of the working directory, which is empty in a tree that does not say where it is. Reading and
writing follow paths one piece at a time, as an operating system does, so each failure has its
cause: nothing there, a file in the way, a directory where a file should be, or bytes that are no
text.
-/

namespace WireMapper

inductive FileError where
  | missing
  | notDirectory
  | isDirectory
  | notText
deriving DecidableEq, Repr

/-- The operating system's words, and those of a reader that expects text. -/
def FileError.message : FileError → String
  | missing => "No such file or directory (os error 2)"
  | notDirectory => "Not a directory (os error 20)"
  | isDirectory => "Is a directory (os error 21)"
  | notText => "stream did not contain valid UTF-8"

inductive FileNode where
  | file (content : ByteArray)
  | directory

/-- The names on the way to a file or directory. -/
abbrev Place := List String

/-- All files and directories, each at its place. The working directory is always there. -/
structure FileTree where
  nodes : List (Place × FileNode)
  working : Place := []

namespace FileTree

def empty : FileTree := { nodes := [] }

def at? (tree : FileTree) (place : Place) : Option FileNode :=
  if place = tree.working then some .directory else tree.nodes.lookup place

/-- Follows the pieces of a path from a place. Each piece needs a directory to be looked up in, also
the empty one after a trailing slash. -/
def follow (tree : FileTree) (place : Place) : List String → Except FileError Place
  | [] => .ok place
  | piece :: pieces =>
    match tree.at? place with
    | none => .error .missing
    | some (.file _) => .error .notDirectory
    | some .directory =>
      if Path.isVoid piece then tree.follow place pieces
      else if piece = ".." then
        if place = ["/"] then tree.follow place pieces
        else if place = [] then .error .missing
        else tree.follow place.dropLast pieces
      else tree.follow (place ++ [piece]) pieces

def start (tree : FileTree) (p : Path) : Place :=
  if p.isAbsolute then ["/"] else tree.working

/-- The place a path leads to, whether or not something stands there. The empty path leads nowhere.
-/
def place? (tree : FileTree) (p : Path) : Except FileError Place :=
  if p.text = "" then .error .missing else tree.follow (tree.start p) p.pieces

def node? (tree : FileTree) (p : Path) : Except FileError FileNode := do
  match tree.at? (← tree.place? p) with
  | none => .error .missing
  | some node => .ok node

def isFile (tree : FileTree) (p : Path) : Bool :=
  match tree.node? p with
  | .ok (.file _) => true
  | _ => false

def isDirectory (tree : FileTree) (p : Path) : Bool :=
  match tree.node? p with
  | .ok .directory => true
  | _ => false

def readBytes (tree : FileTree) (p : Path) : Except FileError ByteArray := do
  match ← tree.node? p with
  | .file content => .ok content
  | .directory => .error .isDirectory

/-- The content of the file a path leads to, which must be a text in UTF-8. -/
def readText (tree : FileTree) (p : Path) : Except FileError String := do
  match String.fromUTF8? (← tree.readBytes p) with
  | some text => .ok text
  | none => .error .notText

/-- Names are ordered by their bytes, which is the order of their code points. -/
def nameBefore (a b : String) : Bool :=
  a.toList.lex b.toList fun c d => c.toNat < d.toNat

/-- A name that a directory can hold: a single piece of a path that leads one level down. -/
def isEntryName (name : String) : Bool :=
  !Path.isVoid name && name ≠ ".." && '/' ∉ name.toList

/-- The regular files at or below a place, by the names that lead to them from there. They come in
the order of a walk that takes the entries of each directory by the bytes of their names. -/
def filesBelow (tree : FileTree) (place : Place) : List Place :=
  let below := tree.nodes.filterMap fun (at_, node) =>
    match node with
    | .directory => none
    | .file _ =>
      let names := at_.drop place.length
      if place.isPrefixOf at_ && names.all isEntryName then some names else none
  below.mergeSort fun p q => !q.lex p nameBefore

/-- The regular files below the directory a path leads to, each by the path with the names written
after it. Where the path leads to no directory there are none. -/
def filesUnder (tree : FileTree) (p : Path) : List Path :=
  match tree.place? p with
  | .error _ => []
  | .ok place =>
    match tree.at? place with
    | some .directory =>
      (tree.filesBelow place).map fun names => names.foldl (fun p name => p.join ⟨name⟩) p
    | _ => []

def without (tree : FileTree) (place : Place) : FileTree :=
  { tree with nodes := tree.nodes.filter fun (at_, _) => !place.isPrefixOf at_ }

def insert (tree : FileTree) (place : Place) (node : FileNode) : FileTree :=
  let parents := (List.range place.length).map place.take |>.filter fun parent =>
    parent ≠ [] && (tree.nodes.lookup parent).isNone
  let kept := tree.nodes.filter fun (at_, _) => at_ ≠ place
  { tree with nodes := kept ++ parents.map (·, .directory) ++ [(place, node)] }

/-- Writes a file where a path leads. The directory it goes into must be there. -/
def write (tree : FileTree) (p : Path) (content : ByteArray) : Except FileError FileTree := do
  let place ← tree.place? p
  match tree.at? place with
  | some .directory => .error .isDirectory
  | some (.file _) => .ok (tree.insert place (.file content))
  | none =>
    match tree.at? place.dropLast with
    | some .directory => .ok (tree.insert place (.file content))
    | some (.file _) => .error .notDirectory
    | none => .error .missing

end FileTree

end WireMapper
