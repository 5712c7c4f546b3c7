import ApiWorkshop.Files.Tree
import ApiWorkshop.Merge.Operation

/-!
# Snapshots

Before anything is planned or written, the files that a run may touch are read.
A snapshot keeps what they hold, which of them are missing, and which cannot be
read.
-/

namespace ApiWorkshop

/-- What the files of a project held when they were read, by their paths below
the project directory. -/
structure Snapshot where
  contents : Entries LooseText (Option Text) := []
  unreadable : Entries LooseText Failure := []
  deriving DecidableEq, Repr

namespace Snapshot

/-- The text of a file, if it was there. -/
def text? (snapshot : Snapshot) (path : LooseText) : Option Text :=
  (Entries.get? path snapshot.contents).join

/-- Whether a file was there and could be read. -/
def hasFile (snapshot : Snapshot) (path : LooseText) : Bool :=
  (snapshot.text? path).isSome

/-- Whether a file could not be read. -/
def isUnreadable (snapshot : Snapshot) (path : LooseText) : Bool :=
  Entries.hasKey path snapshot.unreadable

/-- A snapshot with one more file.  Only a path that the file system refuses
is an error. -/
def add (tree : FileTree) (here : Location) (root : Path) (path : LooseText)
    (snapshot : Snapshot) : Except FileError Snapshot := do
  let file := root.join (Path.ofText path)
  let present ← tree.pathExists here file
  if !present then
    .ok { snapshot with contents := snapshot.contents ++ [(path, none)] }
  else
    match tree.readText here file with
    | .ok text => .ok { snapshot with contents := snapshot.contents ++ [(path, some text)] }
    | .error _ =>
        .ok { snapshot with unreadable := snapshot.unreadable ++ [(path, .unreadable file)] }

/-- Reads the files at paths below the project directory, each path once. -/
def capture (tree : FileTree) (here : Location) (root : Path) (paths : List LooseText) :
    Except FileError Snapshot :=
  paths.eraseDups.foldlM (fun snapshot path => add tree here root path snapshot) {}

end Snapshot

end ApiWorkshop
