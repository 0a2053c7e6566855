import WireMapper.CommandLine.Settings

/-!
Reading a command line. Options stand anywhere behind their command, in a long and mostly also in a
short form, and every one of them takes a value: attached, or as the next argument if that does not
look like an option itself. Two dashes end the options.
-/

namespace WireMapper.CommandLine

inductive Parameter where
  | logLevel
  | schema
  | config
  | root
  | runtimeClasses
  | format
  | output
  | message
deriving DecidableEq, Repr

namespace Parameter

/-- The long form, without its dashes. -/
def long : Parameter → String
  | logLevel => "log-level"
  | schema => "schema"
  | config => "config"
  | root => "root"
  | runtimeClasses => "runtime-classes"
  | format => "format"
  | output => "output"
  | message => "message"

/-- The letter of the short form. -/
def short? : Parameter → Option Char
  | logLevel | runtimeClasses => none
  | schema => some 's'
  | config => some 'c'
  | root => some 'r'
  | format => some 'f'
  | output => some 'o'
  | message => some 'm'

def isRepeatable : Parameter → Bool
  | root | message => true
  | _ => false

/-- The values that an option takes. A path must not be empty. -/
def accepts (p : Parameter) (value : String) : Bool :=
  match p with
  | logLevel | message => true
  | format => (OutputFormat.ofName? value).isSome
  | schema | config | root | runtimeClasses | output => value ≠ ""

def common : List Parameter :=
  [logLevel, config, root, runtimeClasses]

end Parameter

inductive UsageFault where
  | noCommand
  | unknownCommand (name : String)
  | unknownOption (argument : String)
  | missingValue (p : Parameter)
  | badValue (p : Parameter) (value : String)
  | givenTwice (p : Parameter)
  | missingOption (p : Parameter)
  | missingOperand (name : String)
  | extraOperand (argument : String)
deriving DecidableEq, Repr

def UsageFault.message : UsageFault → String
  | noCommand => "a command is required"
  | unknownCommand name => "unknown command: " ++ name
  | unknownOption argument => "unknown option: " ++ argument
  | missingValue p => "--" ++ p.long ++ " needs a value"
  | badValue p value => "--" ++ p.long ++ " does not take the value " ++ value
  | givenTwice p => "--" ++ p.long ++ " is given twice"
  | missingOption p => "--" ++ p.long ++ " is required"
  | missingOperand name => name ++ " is required"
  | extraOperand argument => "unexpected argument: " ++ argument

inductive Stop where
  | usage (fault : UsageFault)
  | version
  | help
deriving DecidableEq, Repr

inductive Command where
  | generate (schema : Path) (settings : Settings) (format? : Option OutputFormat)
      (output? : Option Path) (only : List String)
  | resolve (className field : String) (settings : Settings)
  | check (settings : Settings)
deriving DecidableEq, Repr

def Command.settings : Command → Settings
  | generate _ settings .. => settings
  | resolve _ _ settings => settings
  | check settings => settings

/-- The files that a command names, apart from its settings. -/
def Command.paths : Command → List Path
  | generate schema _ _ output? _ => schema :: output?.toList
  | _ => []

/-- What one argument is. -/
inductive Word where
  /-- An option with its value attached. -/
  | attached (p : Parameter) (value : String)
  /-- An option whose value is the next argument. -/
  | pending (p : Parameter)
  | endOfOptions
  | operand (text : String)
  | stop (s : Stop)

/-- An option in its long form. What follows an equals sign is its value. -/
def longWord (allowed : List Parameter) (hasVersion : Bool) (argument body : String) : Word :=
  let cs := body.toList
  let name := String.ofList (cs.takeWhile (· ≠ '='))
  let value? :=
    match cs.dropWhile (· ≠ '=') with
    | [] => none
    | _ :: value => some (String.ofList value)
  match allowed.find? (·.long = name), value? with
  | some p, some value => .attached p value
  | some p, none => .pending p
  | none, some _ => .stop (.usage (.unknownOption argument))
  | none, none =>
    if name = "help" then .stop .help
    else if name = "version" && hasVersion then .stop .version
    else .stop (.usage (.unknownOption argument))

/-- An option in its short form. What follows the letter is its value, and an equals sign between
them does not count. -/
def shortWord (allowed : List Parameter) (hasVersion : Bool) (argument : String) (letter : Char)
    (rest : List Char) : Word :=
  match allowed.find? (·.short? = some letter), rest with
  | some p, [] => .pending p
  | some p, '=' :: value => .attached p (String.ofList value)
  | some p, value => .attached p (String.ofList value)
  | none, _ =>
    if letter = 'h' then .stop .help
    else if letter = 'V' && hasVersion then .stop .version
    else .stop (.usage (.unknownOption argument))

/-- What an argument is, where the given options are allowed. A single dash is no option. -/
def wordOf (allowed : List Parameter) (hasVersion : Bool) (argument : String) : Word :=
  match argument.toList with
  | ['-', '-'] => .endOfOptions
  | '-' :: '-' :: body => longWord allowed hasVersion argument (String.ofList body)
  | '-' :: letter :: rest => shortWord allowed hasVersion argument letter rest
  | _ => .operand argument

/-- An argument that is taken for an option wherever it stands. -/
def looksLikeOption (argument : String) : Bool :=
  match argument.toList with
  | '-' :: _ :: _ => true
  | _ => false

abbrev Given := List (Parameter × String)

def Given.values (given : Given) (p : Parameter) : List String :=
  (given.filter (·.1 = p)).map (·.2)

def Given.value? (given : Given) (p : Parameter) : Option String :=
  (given.values p).head?

def Given.add (given : Given) (p : Parameter) (value : String) : Except Stop Given :=
  if !p.accepts value then .error (.usage (.badValue p value))
  else if !p.isRepeatable && (given.value? p).isSome then .error (.usage (.givenTwice p))
  else .ok (given ++ [(p, value)])

/-- Reads options up to the first operand; gives the options and the arguments from there on. -/
def readOptions (allowed : List Parameter) (hasVersion : Bool) (given : Given) :
    List String → Except Stop (Given × List String)
  | [] => .ok (given, [])
  | argument :: arguments =>
    match wordOf allowed hasVersion argument with
    | .stop s => .error s
    | .operand _ | .endOfOptions => .ok (given, argument :: arguments)
    | .attached p value => do
      readOptions allowed hasVersion (← given.add p value) arguments
    | .pending p =>
      match arguments with
      | [] => .error (.usage (.missingValue p))
      | value :: arguments =>
        if looksLikeOption value then .error (.usage (.missingValue p))
        else do readOptions allowed hasVersion (← given.add p value) arguments

/-- Reads options and operands to the end. More operands than there are places for are refused at
the first that has none. -/
def readAll (allowed : List Parameter) (places : Nat) (given : Given) (operands : List String) :
    List String → Except Stop (Given × List String)
  | [] => .ok (given, operands)
  | argument :: arguments =>
    match wordOf allowed false argument with
    | .stop s => .error s
    | .endOfOptions =>
      match (operands ++ arguments).drop places with
      | [] => .ok (given, operands ++ arguments)
      | extra :: _ => .error (.usage (.extraOperand extra))
    | .operand text =>
      if operands.length < places then
        readAll allowed places given (operands ++ [text]) arguments
      else .error (.usage (.extraOperand text))
    | .attached p value => do
      readAll allowed places (← given.add p value) operands arguments
    | .pending p =>
      match arguments with
      | [] => .error (.usage (.missingValue p))
      | value :: arguments =>
        if looksLikeOption value then .error (.usage (.missingValue p))
        else do readAll allowed places (← given.add p value) operands arguments

def Given.settings (given : Given) : Settings :=
  { config? := (given.value? .config).map Path.mk
    roots := (given.values .root).map Path.mk
    runtimeClasses? := (given.value? .runtimeClasses).map Path.mk }

def readGenerate (arguments : List String) : Except Stop Command := do
  let allowed := Parameter.common ++ [.schema, .format, .output, .message]
  let (given, _) ← readAll allowed 0 [] [] arguments
  match given.value? .schema with
  | none => .error (.usage (.missingOption .schema))
  | some schema =>
    return .generate ⟨schema⟩ given.settings ((given.value? .format).bind OutputFormat.ofName?)
      ((given.value? .output).map Path.mk) (given.values .message)

def readResolve (arguments : List String) : Except Stop Command := do
  match ← readAll Parameter.common 2 [] [] arguments with
  | (given, className :: field :: _) => return .resolve className field given.settings
  | (_, []) => .error (.usage (.missingOperand "CLASS"))
  | (_, [_]) => .error (.usage (.missingOperand "FIELD"))

def readCheck (arguments : List String) : Except Stop Command := do
  let (given, _) ← readAll Parameter.common 0 [] [] arguments
  return .check given.settings

def readHelp : List String → Stop
  | [] => .help
  | [name] =>
    if ["generate", "resolve", "check", "help"].contains name then .help
    else .usage (.unknownCommand name)
  | name :: _ => .usage (.unknownCommand name)

def read (arguments : List String) : Except Stop Command := do
  match ← readOptions [.logLevel] true [] arguments with
  | (_, []) => .error (.usage .noCommand)
  | (_, name :: arguments) =>
    match name with
    | "generate" => readGenerate arguments
    | "resolve" => readResolve arguments
    | "check" => readCheck arguments
    | "help" => .error (readHelp arguments)
    | name => .error (.usage (.unknownCommand name))

end WireMapper.CommandLine
