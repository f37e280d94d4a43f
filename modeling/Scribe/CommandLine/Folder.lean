/-! The working folder, and where paths lead from it. -/
namespace Scribe
namespace CommandLine

/-- What stands in the way of reading or writing a file. -/
inductive FileFault where
  | missing
  | isFolder
  | notInFolder
  /-- Names cannot hold the null character. -/
  | nullCharacter
  | tooLong
deriving DecidableEq, Repr

/-- A folder without folders in it. -/
structure Folder where
  files : List (String × ByteArray)

/-- The parts of a path between slashes, without the empty ones. -/
def pathParts (path : String) : List String :=
  (cut [] path.toList).filter (· ≠ "")
where
  cut (part : List Char) : List Char → List String
    | [] => [String.ofList part]
    | c :: cs =>
      if c = '/' then String.ofList part :: cut [] cs else cut (part ++ [c]) cs

/-- A path that starts with a slash starts at the root. -/
def isAbsolute (path : String) : Bool := path.toList.head? == some '/'

/-- A path with a slash at its end names a folder. -/
def endsInSlash (path : String) : Bool := path.toList.getLast? == some '/'

/-- Names have at most 255 bytes. -/
def isTooLong (name : String) : Bool := 255 < name.utf8ByteSize

/-- Where a path has led to: the working folder, a folder of the root such as the one
around it, or the root. -/
inductive Spot where
  | working
  | outer
  | root
deriving DecidableEq, Repr

/-- The folders that every root has. -/
def rootFolders : List String :=
  ["bin", "boot", "dev", "etc", "home", "lib", "media", "mnt", "opt", "proc", "root", "run",
    "sbin", "srv", "sys", "tmp", "usr", "var"]

/-- A device without content. -/
def nullDevice : String := "/dev/null"

namespace Folder

def find? (folder : Folder) (name : String) : Option ByteArray := folder.files.lookup name

/-- Go on by one part of a path. Of the folders of the root nothing further is known. -/
def enter (folder : Folder) (spot : Spot) (part : String) : Except FileFault Spot :=
  if part = "." then .ok spot
  else if part = ".." then .ok (if spot = .working then .outer else .root)
  else if isTooLong part then .error .tooLong
  else match spot with
    | .working => .error (if (folder.find? part).isSome then .notInFolder else .missing)
    | .outer => .error .missing
    | .root => if part ∈ rootFolders then .ok .outer else .error .missing

/-- Go on by all parts but the last, which is left. -/
def follow (folder : Folder) (spot : Spot) : List String → Except FileFault (Spot × String)
  | [] => .error .isFolder
  | [last] => .ok (spot, last)
  | part :: next :: rest => do follow folder (← folder.enter spot part) (next :: rest)

/-- The folder that a path leads to, and the name of something in it. Dots at the end
name folders, not something in them. -/
def locate (folder : Folder) (path : String) : Except FileFault (Spot × String) :=
  if '\x00' ∈ path.toList then .error .nullCharacter
  else if path.isEmpty then .error .missing
  else if 4096 ≤ path.utf8ByteSize then .error .tooLong
  else
    match folder.follow (if isAbsolute path then .root else .working) (pathParts path) with
    | .error fault => .error fault
    | .ok (spot, last) =>
      if last = "." ∨ last = ".." then .error .isFolder else .ok (spot, last)

def read (folder : Folder) (path : String) : Except FileFault ByteArray := do
  if path = nullDevice then return .empty
  let (spot, name) ← folder.locate path
  if isTooLong name then .error .tooLong
  else match spot, folder.find? name with
    | .working, some content => if endsInSlash path then .error .notInFolder else .ok content
    | .root, _ => .error (if name ∈ rootFolders then .isFolder else .missing)
    | _, _ => .error .missing

/-- The file that writing to a path writes: by its name if it is in the folder, else by
the path. -/
def target (folder : Folder) (path : String) : Except FileFault String := do
  let (spot, name) ← folder.locate path
  if endsInSlash path then .error .isFolder
  else if isTooLong name then .error .tooLong
  else match spot with
    | .working => .ok name
    | .outer => .ok path
    | .root => if name ∈ rootFolders then .error .isFolder else .ok path

end Folder
end CommandLine
end Scribe
