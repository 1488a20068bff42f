/-!
Files and the paths that name them. A path is normal if it has no empty and no single-dot parts.
-/
namespace Bourse

/-- What a path names. -/
inductive Stored where
  | missing
  /-- A path through a file as if that were a folder. -/
  | blocked
  | folder
  | file (bytes : ByteArray)

namespace Path

/-- The parts of a path between slashes, without those that stay in place. -/
def parts (path : String) : List String :=
  ((path.splitOn "/").filter fun part => part != "" && part != ".")

/-- The slashes at the front: two of them differ from one, more do not. -/
def root (path : String) : String :=
  match path.toList with
  | '/' :: '/' :: '/' :: _ => "/"
  | '/' :: '/' :: _ => "//"
  | '/' :: _ => "/"
  | _ => ""

/-- The path with a root and parts, in its normal form. -/
def ofParts (root : String) (parts : List String) : String :=
  let text := root ++ "/".intercalate parts
  if text = "" then "." else text

/-- A path in its normal form. -/
def normal (path : String) : String := ofParts (root path) (parts path)

/-- The folder that a path leads to before its last part. -/
def parent (path : String) : String := ofParts (root path) (parts path).dropLast

end Path

/-- The reasons why no file can be written under a path. -/
inductive WriteFault where
  | noFolder
  /-- A path through a file as if that were a folder. -/
  | blocked
  | isFolder
deriving DecidableEq, Repr

/-- Why no file can be written under a path, from what paths name: it has to be a file or to lie in
a folder. -/
def writeFault? (stored : String → Stored) (path : String) : Option WriteFault :=
  match stored path with
  | .file _ => none
  | .folder => some .isFolder
  | .blocked => some .blocked
  | .missing =>
    match stored (Path.parent path) with
    | .folder => none
    | _ => some .noFolder

/-- Files in a folder, by their normal paths. -/
structure Files where
  entries : List (String × ByteArray) := []

namespace Files

/-- What the path with the given parts names. -/
def atParts (files : Files) (parts : List String) : Stored :=
  match files.entries.find? fun entry => Path.parts entry.1 == parts with
  | some (_, bytes) => .file bytes
  | none =>
    if parts.isEmpty || files.entries.any fun entry => parts.isPrefixOf (Path.parts entry.1) then
      .folder
    else .missing

/-- Follows the parts of a path from a folder that is given by its own parts. -/
def follow (files : Files) (here : List String) : List String → Stored
  | [] => files.atParts here
  | part :: rest =>
    match files.atParts here with
    | .folder =>
      if part = ".." then if here.isEmpty then .missing else files.follow here.dropLast rest
      else files.follow (here ++ [part]) rest
    | .file _ => .blocked
    | other => other

/-- What a path names. -/
def stored (files : Files) (path : String) : Stored :=
  if Path.root path = "" then files.follow [] (Path.parts path)
  else if Path.parts path = [] then .folder
  else .missing

end Files

end Bourse
