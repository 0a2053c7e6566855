import WireMapper.Error
import WireMapper.FileTree
import WireMapper.Text.WhiteSpace
import WireMapper.Toml.Decode
import WireMapper.Toml.Document

/-!
The configuration of the generator: where the Java source is, which library classes are known, and
how the output looks. Everything has a default but the source roots.
-/

namespace WireMapper

open WireMapper.Toml (Fault Value)

inductive OutputFormat where
  | json
  | text
deriving DecidableEq, Repr

namespace OutputFormat

def name : OutputFormat → String
  | json => "json"
  | text => "text"

def ofName? : String → Option OutputFormat
  | "json" => some json
  | "text" => some text
  | _ => none

end OutputFormat

structure OutputConfig where
  format : OutputFormat := .json
  builderName : String := "builder"
  wireParameter : String := "grpc"
deriving DecidableEq, Repr

structure Config where
  logLevel : String := "info"
  sourceRoots : List Path := []
  annotateByDefault : Bool := true
  runtimeClasses : Option Path := none
  output : OutputConfig := {}
deriving DecidableEq, Repr

inductive ConfigFault where
  | unreadable (path : Path) (cause : FileError)
  | malformed (fault : Fault)
  | noRoots
  | emptyRoot (index : Nat)
  | repeatedRoot (root : Path)
  | unknownLevel (level : String)
  | blankBuilder
  | blankParameter
deriving DecidableEq, Repr

def ConfigFault.message : ConfigFault → String
  | unreadable path cause => "failed to read " ++ path.text ++ ": " ++ cause.message
  | malformed fault => fault.message
  | noRoots => "at least one source root is required"
  | emptyRoot index => "source root #" ++ toString index ++ " is empty"
  | repeatedRoot root => "source root listed twice: " ++ root.text
  | unknownLevel level => "unknown log level: " ++ level
  | blankBuilder => "output.builder_name cannot be empty"
  | blankParameter => "output.wire_parameter cannot be empty"

def ConfigFault.toError (fault : ConfigFault) : Error :=
  .config fault.message

namespace OutputFormat

def decode (value : Value) : Except Fault OutputFormat := do
  let name ← value.asName
  match ofName? name with
  | some format => return format
  | none => .error (.unknownName name)

end OutputFormat

def OutputConfig.decode (value : Value) : Except Fault OutputConfig := do
  let default : OutputConfig := {}
  return {
    format := ← value.fieldOr 0 "format" OutputFormat.decode default.format
    builderName := ← value.fieldOr 1 "builder_name" Value.asString default.builderName
    wireParameter := ← value.fieldOr 2 "wire_parameter" Value.asString default.wireParameter }

def Path.decode (value : Value) : Except Fault Path :=
  value.asString.map Path.mk

namespace Config

def decode (value : Value) : Except Fault Config := do
  let default : Config := {}
  return {
    logLevel := ← value.fieldOr 0 "log_level" Value.asString default.logLevel
    sourceRoots := ← value.fieldOr 1 "source_roots"
      (fun roots => do (← roots.asArray).mapM Path.decode) default.sourceRoots
    annotateByDefault := ← value.fieldOr 2 "default_nullability_annotations" Value.asBoolean
      default.annotateByDefault
    runtimeClasses := ← value.fieldOr 3 "runtime_classes" (fun path => (Path.decode path).map some)
      default.runtimeClasses
    output := ← value.fieldOr 4 "output" OutputConfig.decode default.output }

def ofText (text : String) : Except ConfigFault Config :=
  match Toml.parse text >>= decode with
  | .error fault => .error (.malformed fault)
  | .ok config => .ok config

def rebasePath (base path : Path) : Path :=
  if path.isAbsolute then path else base.join path

def rebase (config : Config) (base : Path) : Config :=
  { config with
    sourceRoots := config.sourceRoots.map (rebasePath base)
    runtimeClasses := config.runtimeClasses.map (rebasePath base) }

/-- Reads a configuration from a file. Its relative paths are seen from the file's directory. -/
def ofFile (tree : FileTree) (path : Path) : Except ConfigFault Config :=
  match tree.readText path with
  | .error cause => .error (.unreadable path cause)
  | .ok text =>
    match ofText text with
    | .error fault => .error fault
    | .ok config =>
      match path.parent? with
      | none => .ok config
      | some base => .ok (config.rebase base)

/-- The first root that is empty or was listed before; `before` holds the roots before these. -/
def rootFault? (before : List Path) : List Path → Option ConfigFault
  | [] => none
  | root :: roots =>
    if root.text = "" then some (.emptyRoot before.length)
    else if before.any (·.same root) then some (.repeatedRoot root)
    else rootFault? (before ++ [root]) roots

/-- Log levels are compared without regard to the case of ASCII letters. -/
def isLogLevel (level : String) : Bool :=
  ["trace", "debug", "info", "warn", "error", "off"].contains level.toLower

/-- The first thing that is wrong with a configuration. -/
def fault? (config : Config) : Option ConfigFault :=
  if config.sourceRoots.isEmpty then some .noRoots
  else
    match rootFault? [] config.sourceRoots with
    | some fault => some fault
    | none =>
      if !isLogLevel config.logLevel then some (.unknownLevel config.logLevel)
      else if Text.isBlank config.output.builderName then some .blankBuilder
      else if Text.isBlank config.output.wireParameter then some .blankParameter
      else none

def validate (config : Config) : Except Error Unit :=
  match config.fault? with
  | some fault => .error fault.toError
  | none => .ok ()

/-- The log level in force: the one given on the command line, unless it is blank. -/
def effectiveLevel (flag : Option String) (configured : String) : String :=
  match flag with
  | some level => if Text.isBlank level then configured else level
  | none => configured

end Config

end WireMapper
