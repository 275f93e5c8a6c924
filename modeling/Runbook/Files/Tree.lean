import Runbook.Files.Path
import Runbook.Text.Utf8
import Runbook.Value.Show

/-!
A tree of files. Each change either succeeds and gives the changed tree, or fails for one of a few causes and leaves
everything as it was.
-/
namespace Runbook

inductive FileEntry
  | file (content : List UInt8)
  | directory
  deriving DecidableEq, Repr, Inhabited

inductive FileCause
  | notFound
  | exists
  | notDirectory
  | isDirectory
  | nameTooLong
  deriving DecidableEq, Repr, Inhabited

namespace FileCause

def number : FileCause → Nat
  | .notFound => 2
  | .exists => 17
  | .notDirectory => 20
  | .isDirectory => 21
  | .nameTooLong => 36

def text : FileCause → String
  | .notFound => "No such file or directory"
  | .exists => "File exists"
  | .notDirectory => "Not a directory"
  | .isDirectory => "Is a directory"
  | .nameTooLong => "File name too long"

end FileCause

/-- A failure, with the path as it was written. -/
structure FileFault where
  cause : FileCause
  path : Path
  deriving DecidableEq, Repr, Inhabited

def FileFault.message (f : FileFault) : Text :=
  "[Errno " ++ Text.ofNat f.cause.number ++ "] " ++ f.cause.text ++ ": " ++ Text.quoted f.path.toText

/-- Every entry but the root, under its place. -/
abbrev FileTree := List (Place × FileEntry)

namespace FileTree

/-- The most octets of a name. -/
def maxName : Nat := 255

/-- The most octets of a path. -/
def maxPath : Nat := 4095

def entry? (tree : FileTree) (place : Place) : Option FileEntry :=
  if place = [] then some .directory else (tree.find? (·.1 = place)).map (·.2)

/-- A known place keeps its position. -/
def put (place : Place) (entry : FileEntry) : FileTree → FileTree
  | [] => [(place, entry)]
  | (p, e) :: tree => if p = place then (p, entry) :: tree else (p, e) :: put place entry tree

/-- Removes a place and all below it. -/
def remove (tree : FileTree) (place : Place) : FileTree :=
  tree.filter fun (p, _) => !Place.isWithin p place

/-- Walks the names from a place; all but the last must be directories. -/
def walk (tree : FileTree) : Place → List Text → Except FileCause Place
  | place, [] => .ok place
  | place, name :: names =>
    match tree.entry? place with
    | none => .error .notFound
    | some (.file _) => .error .notDirectory
    | some .directory =>
      if maxName < (Text.utf8 name).length then .error .nameTooLong
      else walk tree (Place.step place name) names

/-- The place that a path names from a working directory. -/
def locate (tree : FileTree) (cwd : Place) (p : Path) : Except FileCause Place :=
  if maxPath < (Text.utf8 p.toText).length then .error .nameTooLong
  else tree.walk (if p.isAbsolute then [] else cwd) p.names

def stat (tree : FileTree) (cwd : Place) (p : Path) : Except FileCause FileEntry := do
  match tree.entry? (← tree.locate cwd p) with
  | some e => .ok e
  | none => .error .notFound

def isDirectory (tree : FileTree) (cwd : Place) (p : Path) : Bool :=
  match tree.stat cwd p with
  | .ok .directory => true
  | _ => false

def isFile (tree : FileTree) (cwd : Place) (p : Path) : Bool :=
  match tree.stat cwd p with
  | .ok (.file _) => true
  | _ => false

def isThere (tree : FileTree) (cwd : Place) (p : Path) : Bool := (tree.stat cwd p).isOk

def read (tree : FileTree) (cwd : Place) (p : Path) : Except FileFault (List UInt8) :=
  match tree.stat cwd p with
  | .ok (.file content) => .ok content
  | .ok .directory => .error ⟨.isDirectory, p⟩
  | .error cause => .error ⟨cause, p⟩

def write (tree : FileTree) (cwd : Place) (p : Path) (content : List UInt8) :
    Except FileFault FileTree :=
  match tree.locate cwd p with
  | .error cause => .error ⟨cause, p⟩
  | .ok place =>
    if tree.entry? place = some .directory then .error ⟨.isDirectory, p⟩
    else .ok (tree.put place (.file content))

def writeText (tree : FileTree) (cwd : Place) (p : Path) (t : Text) : Except FileFault FileTree :=
  tree.write cwd p (Text.utf8 t)

/-- Makes one directory, whose parent must be there and which must not. -/
def makeDirectory (tree : FileTree) (cwd : Place) (p : Path) : Except FileCause FileTree :=
  match tree.locate cwd p with
  | .error cause => .error cause
  | .ok place =>
    if (tree.entry? place).isSome then .error .exists
    else .ok (tree.put place .directory)

/-- Makes one directory unless it is there. -/
def ensureDirectory (tree : FileTree) (cwd : Place) (p : Path) : Except FileFault FileTree :=
  match tree.makeDirectory cwd p with
  | .ok tree => .ok tree
  | .error cause =>
    if cause ≠ .notFound ∧ tree.isDirectory cwd p then .ok tree else .error ⟨cause, p⟩

/-- Makes a directory and, up to `levels` names back, the directories above it. -/
def ensureAbove (tree : FileTree) (cwd : Place) (p : Path) : Nat → Except FileFault FileTree
  | 0 => tree.ensureDirectory cwd p
  | levels + 1 =>
    match tree.makeDirectory cwd p with
    | .error .notFound => do
      let tree ← tree.ensureAbove cwd p.parent levels
      tree.ensureDirectory cwd p
    | _ => tree.ensureDirectory cwd p

/-- Makes a directory with all directories above it; one that is there stays. -/
def ensureDirectories (tree : FileTree) (cwd : Place) (p : Path) : Except FileFault FileTree :=
  tree.ensureAbove cwd p p.names.length

/-- What is left where a directory cannot be made: of the directories above it, those that came before the failure. -/
def leftAbove (tree : FileTree) (cwd : Place) (p : Path) : Nat → FileTree
  | 0 => tree
  | levels + 1 =>
    match tree.makeDirectory cwd p with
    | .error .notFound =>
      match tree.ensureAbove cwd p.parent levels with
      | .ok made => made
      | .error _ => tree.leftAbove cwd p.parent levels
    | _ => tree

def leftDirectories (tree : FileTree) (cwd : Place) (p : Path) : FileTree :=
  tree.leftAbove cwd p p.names.length

/-- Puts a file, or a directory when there is no content, with all directories above it where that can be done. -/
def plant (tree : FileTree) (cwd : Place) (p : Path) (content : Option (List UInt8)) : FileTree :=
  let made := tree.ensureDirectories cwd (if content.isSome then p.parent else p)
  (match content with
    | none => made
    | some bytes => made.bind fun files => files.write cwd p bytes).toOption.getD tree

/-- The files below a place, under their paths from there. -/
def listing (tree : FileTree) (place : Place) : List (Text × List UInt8) :=
  tree.filterMap fun (p, e) =>
    match e with
    | .file content =>
      if Place.isWithin p place then some (Text.join "/" (p.drop place.length), content) else none
    | .directory => none

end FileTree
end Runbook
