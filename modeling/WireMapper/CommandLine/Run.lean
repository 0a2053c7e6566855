import WireMapper.CommandLine.Arguments
import WireMapper.Report.Build

/-!
Running a command on the files as they are. A run prints, may write one file, and ends with an exit
code: 0, or 1 after a failure or a report with errors, or 2 for a command line that is not
understood.
-/

namespace WireMapper.CommandLine

structure Outcome where
  exitCode : Nat
  printed : String
  failure? : Option Failure := none
  /-- The report that was written to a file. -/
  written? : Option (Path × String) := none
deriving DecidableEq, Repr

namespace Outcome

def done (printed : String) : Outcome :=
  { exitCode := 0, printed }

/-- A run that failed after it printed something. -/
def failed (printed : String) (failure : Failure) : Outcome :=
  { exitCode := 1, printed, failure? := failure }

/-- The outcome of a run that prints nothing unless it succeeds. -/
def ofExcept : Except Failure Outcome → Outcome
  | .ok outcome => outcome
  | .error failure => failed "" failure

end Outcome

def versionText : String := "protomap 0.3.0\n"

def helpText : String :=
  "Usage: protomap [--log-level LEVEL] COMMAND\n\n" ++
    "Commands:\n" ++
    "  generate --schema FILE   map the messages of a descriptor set\n" ++
    "  resolve CLASS FIELD      tell how a class reaches one of its fields\n" ++
    "  check                    check the configuration\n\n" ++
    "Options of every command:\n" ++
    "  -c, --config FILE           configuration, protomap.toml by default\n" ++
    "  -r, --root DIRECTORY        source root, may be repeated\n" ++
    "      --runtime-classes FILE  description of library classes\n" ++
    "      --log-level LEVEL\n\n" ++
    "Options of generate:\n" ++
    "  -s, --schema FILE    binary descriptor set\n" ++
    "  -f, --format FORMAT  json or text\n" ++
    "  -o, --output FILE    where the report goes\n" ++
    "  -m, --message NAME   message to be mapped, may be repeated\n"

def validated (config : Config) : Except Failure Config :=
  match config.fault? with
  | some fault => .error (.invalidConfig fault)
  | none => .ok config

/-- Prints a report or writes it to a file. A report with errors makes the run fail. -/
def deliver (tree : FileTree) (output? : Option Path) (report : Report) (format : OutputFormat) :
    Except Failure Outcome :=
  let exitCode := if report.hasErrors then 1 else 0
  let text := report.render format ++ "\n"
  match output? with
  | none => .ok { exitCode, printed := text }
  | some path =>
    match tree.write path text.toUTF8 with
    | .ok _ => .ok { exitCode, printed := "", written? := (path, text) }
    | .error cause => .error (.reportNotWritten path cause)

def runGenerate (tree : FileTree) (schema : Path) (format? : Option OutputFormat)
    (output? : Option Path) (only : List String) (config : Config) : Outcome :=
  .ofExcept do
    let format := format?.getD config.output.format
    let config ← validated config
    deliver tree output? (← Report.build tree config schema only) format

def runResolve (tree : FileTree) (className field : String) (config : Config) : Outcome :=
  .ofExcept do
    let config ← validated config
    let resolver ← config.resolver tree
    match resolver.resolve tree className field with
    | .ok resolution => return .done (resolution.toJson.pretty ++ "\n")
    | .error e => .error (.notResolved className field e)

def formatTitle : OutputFormat → String
  | .json => "Json"
  | .text => "Text"

/-- What is said about a configuration that can be used. -/
def checkText (config : Config) : String :=
  "✓ Source roots: " ++ toString config.sourceRoots.length ++ "\n✓ Log level: " ++
    config.logLevel ++ "\n✓ Output format: " ++ formatTitle config.output.format ++
    "\n\nConfig is valid!\n"

/-- Checks a configuration. Its library classes must be there; source roots need not. -/
def runCheck (tree : FileTree) (settings : Settings) (config : Config) : Outcome :=
  let title :=
    "Checking config: " ++ (settings.config?.getD defaultConfig).text ++ "\n"
  match config.fault? with
  | some fault => .failed title (.invalidConfig fault)
  | none =>
    match config.runtimeClasses.filter fun path => !tree.isFile path with
    | some path => .failed title (.classesMissing path)
    | none => .done (title ++ checkText config)

def Command.run (tree : FileTree) (command : Command) : Outcome :=
  match command.settings.load tree with
  | .error failure => .failed "" failure
  | .ok config =>
    match command with
    | generate schema _ format? output? only =>
      runGenerate tree schema format? output? only config
    | resolve className field _ => runResolve tree className field config
    | check settings => runCheck tree settings config

def Stop.outcome : Stop → Outcome
  | usage _ => { exitCode := 2, printed := "" }
  | version => .done versionText
  | help => .done helpText

def run (tree : FileTree) (arguments : List String) : Outcome :=
  match read arguments with
  | .error stop => stop.outcome
  | .ok command => command.run tree

end WireMapper.CommandLine
