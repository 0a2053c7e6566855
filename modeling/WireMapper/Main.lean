import WireMapper.CommandLine.Run

/-!
The program. It takes a picture of the files that a command can see, runs the command on the
picture, and then prints and writes what came of it.
-/

open WireMapper

/-- The tree with the file or directory at a path, as far as it can be read. With `deep`, everything
below a directory is taken too, but for links. -/
partial def addPicture (deep : Bool) (tree : FileTree) (path : String) : IO FileTree :=
  try
    let real ← IO.FS.realPath path
    let place := "/" :: Path.names ⟨real.toString⟩
    match (← real.metadata).type with
    | .file => return tree.insert place (.file (← IO.FS.readBinFile real))
    | .dir =>
      let mut tree := tree.insert place .directory
      if deep then
        for entry in ← real.readDir do
          unless (← entry.path.symlinkMetadata).type matches .symlink do
            tree ← addPicture deep tree entry.path.toString
      return tree
    | _ => return tree
  catch _ => return tree

/-- The files that a command can see: its configuration, what that leads to, and what is named with
the command. The directory of a file that is to be written must be there too. -/
def pictureFor (command : CommandLine.Command) : IO FileTree := do
  let working := "/" :: Path.names ⟨(← IO.currentDir).toString⟩
  let mut tree : FileTree := { nodes := [], working }
  tree := tree.insert working .directory
  tree ← addPicture false tree (command.settings.config?.getD CommandLine.defaultConfig).text
  for path in command.paths do
    tree ← addPicture false tree ((path.parent?.map (·.text)).getD "")
    tree ← addPicture false tree path.text
  match command.settings.load tree with
  | .error _ => return tree
  | .ok config =>
    for root in config.sourceRoots do
      tree ← addPicture true tree root.text
    for path in config.runtimeClasses.toList do
      tree ← addPicture false tree path.text
    return tree

/-- The lines that explain a failure. A single cause stands alone; several are numbered. -/
def explanation (failure : Failure) : String :=
  let causes :=
    match failure.causes with
    | [] => []
    | [cause] => ["", "Caused by:", "    " ++ cause]
    | causes =>
      "" :: "Caused by:" :: causes.mapIdx fun i cause => "    " ++ toString i ++ ": " ++ cause
  "\n".intercalate (("Error: " ++ failure.message) :: causes)

def conclude (outcome : CommandLine.Outcome) : IO UInt32 := do
  IO.print outcome.printed
  if let some (path, content) := outcome.written? then
    IO.FS.writeFile path.text content
  if let some failure := outcome.failure? then
    IO.eprintln (explanation failure)
  return outcome.exitCode.toUInt32

def main (arguments : List String) : IO UInt32 := do
  match CommandLine.read arguments with
  | .error stop =>
    if let .usage fault := stop then
      IO.eprintln ("error: " ++ fault.message)
    conclude stop.outcome
  | .ok command => conclude (command.run (← pictureFor command))
