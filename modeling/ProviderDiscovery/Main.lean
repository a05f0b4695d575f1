import ProviderDiscovery.CommandLine.Execute

/-!
# The program

Checks configuration files, lists the providers of a capability, or lists the capabilities that
have configuration files. The arguments and two environment variables settle the class path. The
paths of the files that the program may see are read from the standard input, one a line, as a
listing of a folder tree prints them; a path that ends in a slash is a folder. So the program reads
no file that its caller has not named.
-/

namespace ProviderDiscovery.CommandLine

/-- The environment variable with the entries of the class path. -/
def classPathVariable : String := "PROVSCOPE_CLASS_PATH"

/-- The environment variable with the installation. -/
def homeVariable : String := "PROVSCOPE_HOME"

/-- The environment variable with the working folder. -/
def workingVariable : String := "PWD"

/-- The tree of nothing but a working folder. -/
def treeAt (folder : Path) : FileTree :=
  let root : FileTree := { (∅ : FileTree) with entries := [], working := [] }
  { root.makeDirectory folder with working := folder.names }

/-- The tree with the file or folder of one more path. A file that cannot be read is left out. -/
def readPath (files : FileTree) (path : String) : IO FileTree := do
  if path.isEmpty then return files
  else if path.endsWith "/" then return files.makeDirectory ⟨path⟩
  else
    try
      let bytes ← IO.FS.readBinFile path
      return files.write ⟨path⟩ bytes.data.toList
    catch _ => return files

/-- The lines of the standard input. -/
partial def readLines (input : IO.FS.Stream) (lines : Array String) : IO (Array String) := do
  let line ← input.getLine
  if line.isEmpty then return lines
  else readLines input (lines.push (line.dropEndWhile (· == '\n')).toString)

/-- Executes a command, and tells the exit code. -/
def runCommand (command : Command) : IO UInt32 := do
  let environment := Settings.ofEnvironment (← IO.getEnv classPathVariable)
    (← IO.getEnv homeVariable)
  let start := ((← IO.getEnv workingVariable).map fun folder => treeAt ⟨folder⟩).getD ∅
  let files ← (← readLines (← IO.getStdin) #[]).foldlM readPath start
  let (result, _) := (execute environment command).run (.fresh files ∅)
  IO.print result.printed
  match result.failure with
  | none => return 0
  | some message =>
    IO.eprintln ("Error: " ++ message)
    return 1

/-- Reports why arguments stand for no command, and tells the exit code. -/
def reportUsage (e : UsageError) : IO UInt32 := do
  match e with
  | .displayHelp | .displayVersion =>
    IO.println e.kind
    return 0
  | _ =>
    IO.eprintln ("error: " ++ e.kind)
    return 2

end ProviderDiscovery.CommandLine

/-- The program. -/
def main (args : List String) : IO UInt32 :=
  match ProviderDiscovery.CommandLine.parse args with
  | .ok command => ProviderDiscovery.CommandLine.runCommand command
  | .error e => ProviderDiscovery.CommandLine.reportUsage e
