/-!
# Errors of the file system

A call of the file system fails with a numbered error, or for another reason
that is given in words.  Some calls are never made: a path or a text without
bytes, or a path with a null character, cannot be handed to the system.
-/

namespace ApiWorkshop

/-- Why a call of the file system fails. -/
inductive FileError where
  | noEntry
  | fileExists
  | notDirectory
  | isDirectory
  | nameTooLong
  | notEmpty
  | busy
  /-- A path has a null character. -/
  | nullInPath
  /-- A path or a text has no bytes. -/
  | notEncodable
  | failed (reason : String)
  deriving DecidableEq, Repr

namespace FileError

def message : FileError → String
  | noEntry => "[Errno 2] No such file or directory"
  | fileExists => "[Errno 17] File exists"
  | notDirectory => "[Errno 20] Not a directory"
  | isDirectory => "[Errno 21] Is a directory"
  | nameTooLong => "[Errno 36] File name too long"
  | notEmpty => "[Errno 39] Directory not empty"
  | busy => "[Errno 16] Device or resource busy"
  | nullInPath => "embedded null character"
  | notEncodable => "a half surrogate pair has no bytes"
  | failed reason => reason

/-- Whether an error comes from the system, and not from a call that cannot be
made. -/
def isFromSystem : FileError → Bool
  | nullInPath => false
  | notEncodable => false
  | _ => true

end FileError

end ApiWorkshop
