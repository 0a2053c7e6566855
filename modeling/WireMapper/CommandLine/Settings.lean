import WireMapper.Failure

/-!
Where the configuration of a command comes from: a file, and the options that take precedence over
it.
-/

namespace WireMapper.CommandLine

/-- The file that is read when no other one is named, if it is there. -/
def defaultConfig : Path := ⟨"protomap.toml"⟩

structure Settings where
  config? : Option Path := none
  roots : List Path := []
  runtimeClasses? : Option Path := none
deriving DecidableEq, Repr

namespace Settings

/-- The configuration with what the options say in the place of what it says. -/
def apply (s : Settings) (config : Config) : Config :=
  { config with
    sourceRoots := if s.roots.isEmpty then config.sourceRoots else s.roots
    runtimeClasses := s.runtimeClasses?.or config.runtimeClasses }

def read (tree : FileTree) (path : Path) : Except Failure Config :=
  match Config.ofFile tree path with
  | .ok config => .ok config
  | .error fault => .error (.configNotLoaded path fault)

/-- The configuration that the options lead to. It is not checked yet. -/
def load (s : Settings) (tree : FileTree) : Except Failure Config :=
  match s.config? with
  | some path => (read tree path).map s.apply
  | none =>
    if tree.isFile defaultConfig then (read tree defaultConfig).map s.apply
    else .ok (s.apply {})

end Settings

end WireMapper.CommandLine
