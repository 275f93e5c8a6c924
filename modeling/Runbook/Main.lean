import Runbook.CommandLine.Basic

/-!
The program around the command line: it loads the files that the words name, replies, and writes back what has changed.
It starts no processes, so the tools of all runners count as missing.
-/
namespace Runbook.Program

/-- The texts of a word that may be paths: the word itself, or the value in it. -/
def pathsOf (word : Text) : List Text :=
  word :: (if word.startsWith "-" then [word.drop 2, ((word.cut '=').2).getD []] else [])

/-- All places above a place and the place itself, from the root on. -/
def places (place : Place) : List Place :=
  (List.range place.length).map fun i => place.take (i + 1)

/-- Puts what stands at a place into the tree. -/
def loadPlace (tree : FileTree) (place : Place) : IO FileTree := do
  let path := (← IO.currentDir) / String.ofList place.toText
  if ← path.isDir then return tree.put place .directory
  else if ← path.pathExists then
    return tree.put place (.file (← IO.FS.readBinFile path).toList)
  else return tree

def loadPath (cwd : Place) (tree : FileTree) (t : Text) : IO FileTree :=
  (places (Place.follow cwd (Path.ofText t))).foldlM loadPlace tree

/-- The files that the words name and those where settings are looked for. -/
def loadFiles (cwd : Place) (words : List Text) : IO FileTree :=
  let settings := Settings.candidates.map fun names => Text.join "/" (Text.ofStrings names)
  (words.flatMap pathsOf ++ settings).foldlM (loadPath cwd) []

/-- The variables that some file names. -/
def loadEnvironment (tree : FileTree) : IO (Fields Text) := do
  let names := tree.flatMap fun (_, e) =>
    match e with
    | .file content => (Text.hits Substitution.variableAt (Text.ofUtf8Lossy content)).map (·.value)
    | .directory => []
  let found ← names.mapM fun name => do
    return (← IO.getEnv (String.ofList name)).map fun v => (name, v.toList)
  return found.filterMap id

/-- Where the clock of files starts. -/
def epoch : Moment := ⟨⟨1970, 1, 1⟩, 0, 0, 0, 0, some 0⟩

/-- The time of a file that has just been made. -/
def clock : IO Moment := do
  let (_, path) ← IO.FS.createTempFile
  let seconds := (← path.metadata).modified.sec
  IO.FS.removeFile path
  return .ofMicros (epoch.micros + seconds * 1000000) (some 0)

def saveEntry (place : Place) (entry : FileEntry) : IO Unit := do
  let path := (← IO.currentDir) / String.ofList place.toText
  match entry with
  | .directory => IO.FS.createDirAll path
  | .file content => IO.FS.writeBinFile path content.toByteArray

/-- Writes each entry that differs from the one before. -/
def saveFiles (before after : FileTree) : IO Unit :=
  after.forM fun (place, entry) => do
    if before.entry? place ≠ some entry then saveEntry place entry

def run (words : List Text) : IO UInt32 := do
  let cwd := Place.follow [] (Path.ofText (← IO.currentDir).toString)
  let files ← loadFiles cwd words
  let environment ← loadEnvironment files
  let host : Host := { environment, files, cwd, scratch := ["tmp"], clock := ← clock }
  let errors ← IO.getStderr
  let (reply, after) := CommandLine.run (← errors.isTty) words host
  saveFiles files after.files
  (← IO.getStdout).putStr (String.ofList reply.output)
  errors.putStr (String.ofList reply.errors)
  if let some f := reply.failure then
    errors.putStrLn (String.ofList ("Error: " ++ f.message))
  return UInt32.ofNat reply.code

end Runbook.Program

def main (arguments : List String) : IO UInt32 :=
  Runbook.Program.run (arguments.map String.toList)
