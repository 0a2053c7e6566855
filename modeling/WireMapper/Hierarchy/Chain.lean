import WireMapper.Naming
import WireMapper.SourceRoots
import WireMapper.Unvisited

/-!
The superclass chain of a class as far as source code shows it. A chain does not depend on the field
that is looked for: it is the list of declarations met on the way up and the reason why it ends. No
source path is entered twice, which bounds the chain by the number of source files.
-/

namespace WireMapper.Hierarchy

open Java (CompilationUnit TypeDecl)

/-- A class on the way up: its declaration and the file that holds it. -/
structure Link where
  path : Path
  unit : CompilationUnit
  decl : TypeDecl

inductive ChainEnd where
  /-- The last class names no superclass. -/
  | top
  /-- No source root holds the superclass that the last class names. -/
  | outside (superclass : String)
  /-- The superclass's file was found but is of no use. -/
  | failed (error : Error)

def directoryOf (path : Path) : Path :=
  path.parent?.getD ⟨""⟩

/-- The chain from a class up. `unentered` holds the paths that were not entered yet, by components;
`entered` holds the names of the classes before, in order. Entering a path again is a cycle, which
comes before any other fault of the file. -/
def chainFrom (roots : SourceRoots) (tree : FileTree) (unentered : List (List String))
    (entered : List String) (file : SourceFile) (className : String) : List Link × ChainEnd :=
  if file.path.components ∈ unentered then
    match file.unit.type? className with
    | none =>
      ([], .failed (.malformed file.path (className ++ " is not declared in this file")))
    | some decl =>
      let link : Link := ⟨file.path, file.unit, decl⟩
      match decl.superclass? with
      | none => ([link], .top)
      | some superclass =>
        match roots.findSuperclass? tree file.unit superclass (directoryOf file.path) with
        | none => ([link], .outside superclass)
        | some superPath =>
          match SourceFile.read tree superPath with
          | .error e => ([link], .failed e)
          | .ok superFile =>
            let rest := chainFrom roots tree (unvisitedAfter file.path.components unentered)
              (entered ++ [className]) superFile (Naming.simpleName superclass)
            (link :: rest.1, rest.2)
  else
    ([], .failed (.cyclic (entered ++ [className])))
termination_by unentered.length
decreasing_by exact length_unvisitedAfter_lt ‹_›

def chain (roots : SourceRoots) (tree : FileTree) (file : SourceFile) (className : String) :
    List Link × ChainEnd :=
  chainFrom roots tree (roots.sources tree) [] file className

end WireMapper.Hierarchy
