import ApiWorkshop.Files.Tree
import ApiWorkshop.Text.Loose

/-!
# Atomic writes

A file is written in full under a temporary name in its own directory and then
put in the place of the old one.  The write is a sequence of calls, and each
call may fail.  After a failure the temporary file is closed and removed; a
file that could not be closed in time is closed once more, and only a failure
of that last call leaves the temporary file behind.
-/

namespace ApiWorkshop

/-- The calls of an atomic write in their order, and those of its cleaning
up. -/
inductive WriteCall where
  | makeParent
  | createTemporary
  | write
  | flush
  | sync
  | close
  | replace
  | closeAgain
  | removeTemporary
  deriving DecidableEq, Repr

/-- The calls of an atomic write that fail for reasons outside the tree. -/
abbrev WriteFaults := WriteCall → Option FileError

/-- No call fails for a reason outside the tree. -/
def WriteFaults.none : WriteFaults := fun _ => Option.none

/-- The faults of a write that fails at once. -/
def WriteFaults.atOnce (error : FileError) : WriteFaults := fun call =>
  if call = .makeParent then some error else Option.none

namespace Path

def parent (path : Path) : Path :=
  { path with names := path.names.dropLast }

end Path

namespace FileTree

/-- A temporary name for a file, by a number of eight digits. -/
def temporaryName (name : LooseText) (number : Nat) : LooseText :=
  "." ++ name ++ "." ++ Text.padded 8 number ++ ".tmp"

/-- A number whose temporary name is not in use in a directory. -/
def freeNumber (tree : FileTree) (directory : Location) (name : LooseText) : Nat :=
  ((List.range (tree.length + 1)).find? fun number =>
    (tree.at? (directory ++ [(temporaryName name number).label])).isNone).getD 0

/-- A location as a path from the top of a tree. -/
def pathTo (location : Location) : Path :=
  ⟨.absolute, location.map LooseText.ofString⟩

/-- Creates an empty temporary file beside a path.  It is named from the top of
the tree, whatever way the path takes. -/
def createTemporary (here : Location) (path : Path) (tree : FileTree) :
    Except FileError (Location × FileTree) := do
  let directory ← locate tree here path.parent
  let name := temporaryName path.name (freeNumber tree directory path.name)
  let location ← locate tree here ((pathTo directory).join ⟨.relative, [name]⟩)
  .ok (location, Entries.put location (.file (.text [])) tree)

/-- Whether a path ends in the name of something, not in a step. -/
def endsInName (path : Path) : Bool :=
  match path.names.getLast? with
  | none => false
  | some name => name != LooseText.ofString ".."

/-- Puts a file in the place of what stands at a path. -/
def moveOver (here : Location) (temporary : Location) (path : Path) (tree : FileTree) :
    Except FileError FileTree := do
  let location ← locate tree here path
  match endsInName path, tree.at? temporary, tree.at? location with
  | false, _, _ => .error .busy
  | true, none, _ => .error .noEntry
  | true, _, some .directory => .error .isDirectory
  | true, some node, _ => .ok (Entries.put location node (Entries.erase temporary tree))

/-- Cleans up after an error: closes the temporary file unless that was done
already, and removes it. -/
def abandon (faults : WriteFaults) (closed : Bool) (temporary : Location) (error : FileError)
    (tree : FileTree) : Except FileError Unit × FileTree :=
  match closed, faults .closeAgain with
  | false, some second => (.error second, tree)
  | _, _ =>
      match faults .removeTemporary with
      | some _ => (.error error, tree)
      | none => (.error error, Entries.erase temporary tree)

/-- What a file holds that was filled with a draft, unless the call fails or the
draft has no bytes. -/
def filled (faults : WriteFaults) (draft : Draft) : Except FileError Content :=
  match faults .write, draft.text? with
  | some error, _ => .error error
  | none, none => .error .notEncodable
  | none, some text => .ok (.text text)

/-- Fills and closes the temporary file and moves it to its place. -/
def fillAndMove (faults : WriteFaults) (here : Location) (path : Path) (draft : Draft)
    (temporary : Location) (tree : FileTree) : Except FileError Unit × FileTree :=
  match filled faults draft, faults .flush with
  | .error error, _ => abandon faults false temporary error tree
  | .ok _, some error => abandon faults false temporary error tree
  | .ok content, none =>
      let tree := Entries.put temporary (.file content) tree
      match faults .sync, faults .close, faults .replace with
      | some error, _, _ => abandon faults false temporary error tree
      | none, some error, _ => abandon faults true temporary error tree
      | none, none, some error => abandon faults true temporary error tree
      | none, none, none =>
          match moveOver here temporary path tree with
          | .ok tree => (.ok (), tree)
          | .error error => abandon faults true temporary error tree

/-- Writes a draft to the file at a path, making the directories that are
missing. -/
def atomicWrite (faults : WriteFaults) (here : Location) (path : Path) (draft : Draft)
    (tree : FileTree) : Except FileError Unit × FileTree :=
  match faults .makeParent with
  | some error => (.error error, tree)
  | none =>
      match makeDirectories here path.parent tree with
      | (.error error, tree) => (.error error, tree)
      | (.ok _, tree) =>
          match faults .createTemporary, createTemporary here path tree with
          | some error, _ => (.error error, tree)
          | none, .error error => (.error error, tree)
          | none, .ok (temporary, tree) => fillAndMove faults here path draft temporary tree

end FileTree

end ApiWorkshop
