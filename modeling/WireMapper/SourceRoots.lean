import WireMapper.Hierarchy.Error
import WireMapper.Java.Parser.Unit

/-!
Finding Java source in a list of root directories. Earlier roots come first, whatever rule finds a
file in them, and an import decides alone where a superclass is.
-/

namespace WireMapper

open Java (CompilationUnit)

structure SourceRoots where
  roots : List Path
deriving Repr

structure SourceFile where
  path : Path
  unit : CompilationUnit

/-- The class's source file, named by a class name with any case and any characters. -/
def sourceName (className : String) : String :=
  className ++ ".java"

def SourceFile.read (tree : FileTree) (path : Path) : Except Hierarchy.Error SourceFile :=
  match tree.readText path with
  | .error cause => .error (.unreadable path cause)
  | .ok source =>
    match CompilationUnit.parse source with
    | .error e => .error (.malformed path e.message)
    | .ok unit => .ok ⟨path, unit⟩

/-- A file is read exactly if its text is that of a compilation unit; its path is the one that was
asked for. -/
theorem SourceFile.read_eq_ok_iff {tree : FileTree} {path : Path} {file : SourceFile} :
    SourceFile.read tree path = .ok file ↔
      (∃ source, tree.readText path = .ok source ∧ CompilationUnit.parse source = .ok file.unit) ∧
        file.path = path := by
  rw [SourceFile.read]
  constructor
  · intro h
    split at h
    · cases h
    rename_i source hsource
    split at h
    · cases h
    rename_i hunit
    cases h
    exact ⟨⟨source, hsource, hunit⟩, rfl⟩
  · rintro ⟨⟨source, hsource, hunit⟩, rfl⟩
    simp only [hsource, hunit]

/-- The faults of a file name its path. -/
theorem SourceFile.read_eq_error {tree : FileTree} {path : Path} {e : Hierarchy.Error}
    (h : SourceFile.read tree path = .error e) :
    (∃ cause, e = .unreadable path cause) ∨ ∃ message, e = .malformed path message := by
  rw [SourceFile.read] at h
  split at h
  · cases h
    exact .inl ⟨_, rfl⟩
  · split at h
    · cases h
      exact .inr ⟨_, rfl⟩
    · cases h

/-- The path of a dotted name below a directory: a directory for each package, and a source file for
the last segment. -/
def qualifiedPath (root : Path) (name : String) : Path :=
  ((Text.split '.' name).foldl (fun path segment => path.join ⟨segment⟩) root).withExtension "java"

namespace SourceRoots

/-- Two lists of roots that name the same directories in the same order. -/
def same (a b : SourceRoots) : Bool :=
  a.roots.map Path.components = b.roots.map Path.components

/-- A key that equal lists of roots share. It tells lists apart up to the root slash of their paths.
-/
def identity (r : SourceRoots) : List (List String) :=
  r.roots.map fun root => root.components.filter (· ≠ "/")

/-- The file below a root that declares the class at its top level, if it can be read and parsed. -/
def declaring? (tree : FileTree) (className : String) (path : Path) : Option SourceFile :=
  if path.fileName? = some (sourceName className) then
    match SourceFile.read tree path with
    | .ok file => if (file.unit.type? className).isSome then some file else none
    | .error _ => none
  else
    none

/-- The file that declares a class is named after it, can be read, and has the class at its top
level. -/
theorem declaring?_eq_some {tree : FileTree} {className : String} {path : Path} {file : SourceFile}
    (h : declaring? tree className path = some file) :
    path.fileName? = some (sourceName className) ∧ SourceFile.read tree path = .ok file ∧
      (file.unit.type? className).isSome = true := by
  unfold declaring? at h
  split at h
  · rename_i hname
    split at h
    · rename_i hread
      obtain ⟨htype, hsame⟩ := Option.ite_none_right_eq_some.mp h
      cases hsame
      exact ⟨hname, hread, htype⟩
    · cases h
  · cases h

/-- The first file that declares the class, in the order of the roots and, below a root, in the
order of a walk through its directories. Files that cannot be read, do not parse or declare
something else are passed over. -/
def findClass? (r : SourceRoots) (tree : FileTree) (className : String) : Option SourceFile :=
  r.roots.findSome? fun root =>
    (tree.filesUnder root).findSome? (declaring? tree className)

/-- Where the superclass named in a unit is looked for below a root. An import decides alone;
otherwise a file of the unit's package, then one beside the referencing file if that lies below this
root, then a file at the name's own dotted path. -/
def superclassCandidate? (tree : FileTree) (unit : CompilationUnit) (superclass : String)
    (directory : Path) (root : Path) : Option Path :=
  match unit.import? superclass with
  | some imported => some (qualifiedPath root imported)
  | none =>
    let packageFile? := unit.package?.map fun package =>
      qualifiedPath root (package ++ "." ++ superclass)
    match packageFile?.filter tree.isFile with
    | some path => some path
    | none =>
      let sibling := directory.join ⟨sourceName superclass⟩
      if tree.isFile sibling && directory.isWithin root then some sibling
      else if '.' ∈ superclass.toList then some (qualifiedPath root superclass)
      else none

def findSuperclass? (r : SourceRoots) (tree : FileTree) (unit : CompilationUnit)
    (superclass : String) (directory : Path) : Option Path :=
  r.roots.findSome? fun root =>
    (superclassCandidate? tree unit superclass directory root).filter tree.isFile

/-- The components of every path that a root and the names of a file below it make up. -/
def sources (r : SourceRoots) (tree : FileTree) : List (List String) :=
  r.roots.flatMap fun root =>
    match tree.follow (tree.start root) root.pieces with
    | .error _ => []
    | .ok place => (tree.filesBelow place).map (root.components ++ ·)

end SourceRoots

end WireMapper
