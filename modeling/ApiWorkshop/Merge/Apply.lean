import ApiWorkshop.Files.AtomicWrite
import ApiWorkshop.Merge.Plan

/-!
# Applying a plan

The operations on one file end in a single atomic write, or in none.  A file
that cannot be written is noted in the report, and the other files are still
written.
-/

namespace ApiWorkshop

/-- Why the text of a file cannot be put together. -/
inductive MergeError where
  | file (error : FileError)
  | notText
  | conflict (conflict : Conflict)
  deriving DecidableEq, Repr

namespace Apply

/-- The regions and contents of the patches among operations that change their
file.  A patch without a region is for one without a name. -/
def patches (operations : List FileOperation) : List (String × Draft) :=
  (operations.filter fun operation => operation.change = .patch && operation.changed).map
    fun operation => (operation.region.getD "", operation.content)

/-- The draft that the first creation or regeneration among operations asks for,
if there is one; nothing inside means that nothing is to be written. -/
def wholeDraft? (operations : List FileOperation) : Option (Option Draft) :=
  operations.findSome? fun operation =>
    match operation.change with
    | .create => some (some operation.content)
    | .regenerate => some (if operation.changed then some operation.content else none)
    | _ => none

/-- A draft with patches made one after the other. -/
def patched (path : String) : Draft → List (String × Draft) → Except Conflict Draft
  | draft, [] => .ok draft
  | draft, (region, content) :: rest => do
      let text ← spliceRegion path draft.text region content.text
      patched path ⟨text, draft.whole && content.whole⟩ rest

/-- The text that patches start from: that of the snapshot, or else that of the
file. -/
def baseText (tree : FileTree) (here : Location) (root : Path) (snapshot : Snapshot)
    (path : LooseText) : Except MergeError Text :=
  match snapshot.text? path with
  | some text => .ok text
  | none =>
      match tree.readText here (root.join (Path.ofText path)) with
      | .ok text => .ok text
      | .error (.file error) => .error (.file error)
      | .error .notText => .error .notText

/-- The draft to write for the operations on a file, or nothing. -/
def mergedDraft (tree : FileTree) (here : Location) (root : Path) (snapshot : Snapshot)
    (path : LooseText) (operations : List FileOperation) : Except MergeError (Option Draft) :=
  match wholeDraft? operations with
  | some draft => .ok draft
  | none =>
      match patches operations with
      | [] => .ok none
      | patches => do
          let base ← baseText tree here root snapshot path
          match patched path.label base patches with
          | .ok draft => .ok (some draft)
          | .error conflict => .error (.conflict conflict)

/-- The operations on each file, in the order of the first one on it. -/
def byPath (operations : List FileOperation) : Entries LooseText (List FileOperation) :=
  operations.foldl
    (fun groups operation =>
      let others := (Entries.get? operation.path groups).getD []
      Entries.put operation.path (others ++ [operation]) groups)
    []

/-- Writes the draft for the operations on a file, if there is something to
write. -/
def writeFile (faults : LooseText → WriteFaults) (here : Location) (root : Path)
    (snapshot : Snapshot) (path : LooseText) (operations : List FileOperation)
    (tree : FileTree) : Except MergeError Unit × FileTree :=
  match mergedDraft tree here root snapshot path operations with
  | .error error => (.error error, tree)
  | .ok none => (.ok (), tree)
  | .ok (some draft) =>
      match tree.atomicWrite (faults path) here (root.join (Path.ofText path)) draft with
      | (.ok _, tree) => (.ok (), tree)
      | (.error error, tree) => (.error (.file error), tree)

/-- The failure that an error of a file leads to in the report; any other error
than one of the system ends the run. -/
def failure? : MergeError → Option Failure
  | .file error => if error.isFromSystem then some (.unwritten error) else none
  | _ => none

/-- Writes the files one after the other and collects the failures. -/
def writeAll (faults : LooseText → WriteFaults) (here : Location) (root : Path)
    (snapshot : Snapshot) :
    List (LooseText × List FileOperation) → Entries LooseText Failure → FileTree →
      Except MergeError (Entries LooseText Failure) × FileTree
  | [], failures, tree => (.ok failures, tree)
  | (path, operations) :: groups, failures, tree =>
      match writeFile faults here root snapshot path operations tree with
      | (.ok _, tree) => writeAll faults here root snapshot groups failures tree
      | (.error error, tree) =>
          match failure? error with
          | some failure =>
              writeAll faults here root snapshot groups (Entries.put path failure failures) tree
          | none => (.error error, tree)

end Apply

def applyOperations (faults : LooseText → WriteFaults) (here : Location) (root : Path)
    (operations : List FileOperation) (snapshot : Snapshot) (tree : FileTree) :
    Except MergeError Report × FileTree :=
  match Apply.writeAll faults here root snapshot (Apply.byPath operations)
      snapshot.unreadable tree with
  | (.ok failures, tree) => (.ok { operations, failures }, tree)
  | (.error error, tree) => (.error error, tree)

end ApiWorkshop
