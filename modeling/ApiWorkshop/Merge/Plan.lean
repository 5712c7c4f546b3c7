import ApiWorkshop.Merge.Snapshot
import ApiWorkshop.Region.Splice

/-!
# Planning

A plan compares rendered files with a snapshot.  A file that is not there is
created.  A file that is there keeps all but the bodies of the regions that it
shares with the rendered text; without regions, or with markers in disorder, it
is left alone.  Documents belong to the generator and are written anew as a
whole.  Files that cannot be read are not planned for.
-/

namespace ApiWorkshop

namespace Plan

/-- Whether the body of a region of a text would change to a draft. -/
def changesBody (existing : Text) (region : Region) (body : Draft) : Bool :=
  !Draft.isHeldBy existing ⟨region.splice existing body.text, body.whole⟩

/-- What happens to one region of a file that is there. -/
def regionOperation (path : LooseText) (existing : Text) (present : List Region)
    (rendered : LooseText) (wanted : Region) : FileOperation :=
  match present.find? (·.name = wanted.name) with
  | none => .skip path (some wanted.name) (.regionMissing wanted.name)
  | some region =>
      let body := LooseText.draft (wanted.body rendered)
      .patch path wanted.name body (changesBody existing region body)

/-- What happens to a file that is there, for the regions of its rendered
text. -/
def regionOperations (path : LooseText) (existing : Text) (rendered : LooseText)
    (wanted : List Region) : List FileOperation :=
  if wanted.isEmpty then
    [.skip path none .alreadyExists]
  else
    match findRegions path.label existing with
    | .error conflict => [.skip path none (.conflict conflict)]
    | .ok present => wanted.map (regionOperation path existing present rendered)

/-- What happens to a rendered file.  The markers of the rendered text itself
have to be in order when the file is there. -/
def fileOperations (snapshot : Snapshot) (file : LooseText × LooseText) :
    Except Conflict (List FileOperation) :=
  let (path, rendered) := file
  if snapshot.isUnreadable path then
    .ok []
  else
    match snapshot.text? path with
    | none => .ok [.create path rendered.draft]
    | some existing => do
        let wanted ← findRegions path.label rendered.shown
        .ok (regionOperations path existing rendered wanted)

def documentOperations (snapshot : Snapshot) (document : LooseText × Draft) :
    List FileOperation :=
  let (path, content) := document
  if snapshot.isUnreadable path then
    []
  else
    match snapshot.text? path with
    | none => [.create path content]
    | some existing => [.regenerate path content (!content.isHeldBy existing)]

end Plan

/-- The operations for rendered files and documents, in order. -/
def plan (rendered : Entries LooseText LooseText) (snapshot : Snapshot)
    (documents : Entries LooseText Draft) : Except Conflict (List FileOperation) := do
  let files ← rendered.mapM (Plan.fileOperations snapshot)
  .ok (files.flatten ++ documents.flatMap (Plan.documentOperations snapshot))

end ApiWorkshop
