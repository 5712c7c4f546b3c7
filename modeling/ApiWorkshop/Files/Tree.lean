import ApiWorkshop.Entries
import ApiWorkshop.Files.Error
import ApiWorkshop.Path
import ApiWorkshop.Text.Lines

/-!
# File trees

A file tree lists directories and files by their location, the names that lead
to them from the top; the top itself is a directory that is always there.  A
path is found by walking from its start: every step has to leave a directory
that exists, double dots step back, and no name may be longer than 255 bytes.
Before the walk the path is handed over as bytes: it has to have some, no null
character among them, and at most 4095.  All names in a tree are texts: names with bytes
that belong to no character, and the halves of surrogate pairs that some systems take for
such bytes, are not modelled.
The calls leave the tree as it was when they fail, except that directories made
on the way stay.
-/

namespace ApiWorkshop

/-- The content of a file: a text, or bytes that are not a text. -/
inductive Content where
  | text (text : Text)
  | bytes (bytes : List UInt8)
  deriving DecidableEq, Repr

/-- What stands at a location. -/
inductive Node where
  | file (content : Content)
  | directory
  deriving DecidableEq, Repr

def Node.isFile : Node → Bool
  | file _ => true
  | directory => false

/-- The names that lead from the top of a tree to a place in it. -/
abbrev Location := List String

/-- The directories and files below the top, by location. -/
abbrev FileTree := Entries Location Node

/-- Why a file cannot be read as a text. -/
inductive ReadError where
  | file (error : FileError)
  | notText
  deriving DecidableEq, Repr

namespace FileTree

/-- What stands at a location of a tree. -/
def at? (tree : FileTree) (location : Location) : Option Node :=
  if location = [] then some .directory else Entries.get? location tree

def children (tree : FileTree) (location : Location) : List String :=
  tree.filterMap fun entry =>
    match entry.1.getLast? with
    | some name => if entry.1.dropLast = location then some name else none
    | none => none

/-- Whether a name has more than 255 bytes. -/
def isTooLong (name : String) : Bool :=
  255 < name.utf8ByteSize

/-- Walks along names from a location.  The last name need not stand for
anything. -/
def walk (tree : FileTree) : Location → List String → Except FileError Location
  | location, [] => .ok location
  | location, name :: names =>
      match tree.at? location with
      | none => .error .noEntry
      | some (.file _) => .error .notDirectory
      | some .directory =>
          if name = ".." then
            walk tree location.dropLast names
          else if isTooLong name then
            .error .nameTooLong
          else
            walk tree (location ++ [name]) names

/-- The location where a path starts that is used in a directory. -/
def start (here : Location) (path : Path) : Location :=
  if path.root = .relative then here else []

/-- The most bytes that a path may have. -/
def pathLimit : Nat := 4095

/-- Hands a path over to the system, which gets the names in it.  Every half of a surrogate
pair is refused, also one that could stand for a byte outside of characters. -/
def handOver (path : Path) : Except FileError (List String) :=
  match path.text.text? with
  | none => .error .notEncodable
  | some text =>
      if text.contains '\x00' then
        .error .nullInPath
      else if pathLimit < (String.ofList text).utf8ByteSize then
        .error .nameTooLong
      else
        .ok (path.names.map LooseText.label)

/-- The location of a path that is used in a directory. -/
def locate (tree : FileTree) (here : Location) (path : Path) : Except FileError Location := do
  let names ← handOver path
  walk tree (start here path) names

def node (tree : FileTree) (here : Location) (path : Path) : Except FileError Node := do
  let location ← locate tree here path
  match tree.at? location with
  | some node => .ok node
  | none => .error .noEntry

/-- Whether something that satisfies a test stands at a path.  A path that
leads nowhere, or cannot be handed over, is no error. -/
def holds (test : Node → Bool) (tree : FileTree) (here : Location) (path : Path) :
    Except FileError Bool :=
  match node tree here path with
  | .ok found => .ok (test found)
  | .error .noEntry => .ok false
  | .error .notDirectory => .ok false
  | .error other => if other.isFromSystem then .error other else .ok false

def pathExists (tree : FileTree) (here : Location) (path : Path) : Except FileError Bool :=
  holds (fun _ => true) tree here path

/-- Whether a path leads to a directory. -/
def isDirectory (tree : FileTree) (here : Location) (path : Path) : Except FileError Bool :=
  holds (! ·.isFile) tree here path

/-- Whether a path leads to a file. -/
def isFile (tree : FileTree) (here : Location) (path : Path) : Except FileError Bool :=
  holds Node.isFile tree here path

/-- The text of the file at a path, as it stands. -/
def readText (tree : FileTree) (here : Location) (path : Path) : Except ReadError Text :=
  match node tree here path with
  | .ok (.file (.text text)) => .ok text
  | .ok (.file (.bytes _)) => .error .notText
  | .ok .directory => .error (.file .isDirectory)
  | .error error => .error (.file error)

/-- The text of the file at a path with every line end as a line feed. -/
def readLines (tree : FileTree) (here : Location) (path : Path) : Except ReadError Text := do
  let text ← readText tree here path
  .ok (Text.universalLines text)

/-- The names in the directory at a path. -/
def namesIn (tree : FileTree) (here : Location) (path : Path) : Except FileError (List String) := do
  let location ← locate tree here path
  match tree.at? location with
  | some .directory => .ok (children tree location)
  | some (.file _) => .error .notDirectory
  | none => .error .noEntry

/-- Walks along names from a directory and makes every directory that is
missing.  A file in the way exists already if it has the last name or if a
directory was made before; else it is no directory to go on from. -/
def makeWay : Bool → Location → List String → FileTree → Except FileError Unit × FileTree
  | _, _, [], tree => (.ok (), tree)
  | made, location, name :: names, tree =>
      if name = ".." then
        makeWay made location.dropLast names tree
      else if isTooLong name then
        (.error .nameTooLong, tree)
      else
        match tree.at? (location ++ [name]) with
        | some .directory => makeWay made (location ++ [name]) names tree
        | some (.file _) =>
            (.error (if made || names.isEmpty then .fileExists else .notDirectory), tree)
        | none =>
            makeWay true (location ++ [name]) names
              (Entries.put (location ++ [name]) .directory tree)

/-- Makes the directory at a path with all directories that are missing on the
way; one that is there already is left alone. -/
def makeDirectories (here : Location) (path : Path) (tree : FileTree) :
    Except FileError Unit × FileTree :=
  match handOver path with
  | .error error => (.error error, tree)
  | .ok names => makeWay false (start here path) names tree

/-- Writes a content to the file at a path, over what it held. -/
def writeFile (here : Location) (path : Path) (content : Content) (tree : FileTree) :
    Except FileError FileTree := do
  let location ← locate tree here path
  match tree.at? location with
  | some .directory => .error .isDirectory
  | _ => .ok (Entries.put location (.file content) tree)

def removeFile (here : Location) (path : Path) (tree : FileTree) : Except FileError FileTree := do
  let location ← locate tree here path
  match tree.at? location with
  | some (.file _) => .ok (Entries.erase location tree)
  | some .directory => .error .isDirectory
  | none => .error .noEntry

/-- Removes the empty directory at a path. -/
def removeDirectory (here : Location) (path : Path) (tree : FileTree) :
    Except FileError FileTree := do
  let location ← locate tree here path
  match tree.at? location with
  | some .directory =>
      if (children tree location).isEmpty then
        .ok (Entries.erase location tree)
      else
        .error .notEmpty
  | some (.file _) => .error .notDirectory
  | none => .error .noEntry

/-- The tree without a location and all that is below it. -/
def without (location : Location) (tree : FileTree) : FileTree :=
  tree.filter fun entry => !location.isPrefixOf entry.1

/-- Removes what stands at a path with all that is below it. -/
def removeTree (here : Location) (path : Path) (tree : FileTree) : Except FileError FileTree := do
  let location ← locate tree here path
  match tree.at? location with
  | some _ => .ok (without location tree)
  | none => .error .noEntry

end FileTree

end ApiWorkshop
