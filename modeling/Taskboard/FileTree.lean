/-!
# Taskboard — files of a directory

* `FileError` — why a file cannot be read as a text;
* `FileTree` — the files below a directory by their paths;
* `FileTree.walk` — reading along a path, name by name;
* `FileTree.system` — what stands at the root of every system;
* `FileTree.read` — the text of a file.
-/

namespace Taskboard

/-- Why a file cannot be read as a text. -/
inductive FileError where
  | notFound
  | notDirectory
  | isDirectory
  | nameTooLong
  | notPermitted
  | notText
  | other (message : String)
  deriving DecidableEq, Repr

/-- The wording of an error, with the number that the system gives it. -/
def FileError.message : FileError → String
  | .notFound => "No such file or directory (os error 2)"
  | .notDirectory => "Not a directory (os error 20)"
  | .isDirectory => "Is a directory (os error 21)"
  | .nameTooLong => "File name too long (os error 36)"
  | .notPermitted => "Permission denied (os error 13)"
  | .notText => "stream did not contain valid UTF-8"
  | .other message => message

/-- What reading a text gives. -/
abbrev Contents := Except FileError String

/-- The files below a directory. A path is a list of names; whatever stands in front of a file is a
directory, and others may be listed. -/
structure FileTree where
  files       : List (List String × ByteArray)
  directories : List (List String) := []

namespace FileTree

/-- The bytes of the file at a place. -/
def file? (tree : FileTree) (place : List String) : Option ByteArray :=
  tree.files.lookup place

/-- Whether a directory stands at a place. -/
def isDirectory (tree : FileTree) (place : List String) : Bool :=
  place.isEmpty || tree.directories.contains place ||
    tree.files.any fun f => place.isPrefixOf f.1 && f.1 != place

/-- The text of the file at a place. A directory has none. -/
def textAt (tree : FileTree) (place : List String) : Contents :=
  match tree.file? place with
  | none => .error .isDirectory
  | some bytes =>
    match String.fromUTF8? bytes with
    | some text => .ok text
    | none => .error .notText

/-! ## Paths -/

/-- The longest name, in bytes. -/
def maxNameSize : Nat := 255

/-- The longest path, in bytes. -/
def maxPathSize : Nat := 4095

/-- Why a name leads nowhere that is not in a directory. -/
def missing (name : String) : FileError :=
  if maxNameSize < name.utf8ByteSize then .nameTooLong else .notFound

/-- Whether a name stays where it is. -/
def isHere (name : String) : Bool :=
  name == "" || name == "."

/-- Reads along a path, name by name, from a place in the tree. Where it leads above the tree,
`leave` answers for what remains; without it the top of the tree is its own parent. -/
def walk (tree : FileTree) (leave : Option (List String → Contents)) :
    List String → List String → Contents
  | place, [] => tree.textAt place
  | place, name :: path =>
    if !tree.isDirectory place then .error .notDirectory
    else if isHere name then walk tree leave place path
    else if name = ".." then
      match place, leave with
      | [], some leave => leave path
      | _, _ => walk tree leave place.dropLast path
    else
      let next := place ++ [name]
      if tree.isDirectory next || (tree.file? next).isSome then walk tree leave next path
      else .error (missing name)

/-- What stands at the root of every system: the usual directories, the device that reads as an
empty text, and the list of users. -/
def system : FileTree where
  files :=
    [(["dev", "null"], "".toUTF8),
     (["etc", "passwd"], "root:x:0:0:root:/root:/bin/sh\n".toUTF8)]
  directories :=
    [["bin"], ["boot"], ["home"], ["lib"], ["media"], ["mnt"], ["opt"], ["proc"], ["run"], ["sbin"],
     ["srv"], ["sys"], ["tmp"], ["usr"], ["usr", "bin"], ["usr", "lib"], ["usr", "share"], ["var"],
     ["var", "lib"], ["var", "tmp"]]

/-- The number of directories between the root of the system and a workspace, at most. -/
def maxWorkspaceDepth : Nat := 4

/-- Reads along a path from a directory above a workspace, `levels` levels above it. Who goes up far
enough is at the root of the system; nothing is known of what stands on the way. -/
def readAbove : (levels : Nat) → List String → Contents
  | _, [] => .error .isDirectory
  | levels, name :: path =>
    if isHere name then readAbove levels path
    else if name = ".." then readAbove (levels + 1) path
    else if maxWorkspaceDepth ≤ levels then system.walk none [] (name :: path)
    else .error (missing name)

/-- The text of the file that a path leads to, which starts at the root of the system if it begins
with a slash. -/
def read (tree : FileTree) (path : String) : Contents :=
  -- the length of a path is looked at before anything on it
  if maxPathSize < path.utf8ByteSize then .error .nameTooLong
  else
    match path.splitOn "/" with
    | [""] => .error .notFound
    | "" :: names => system.walk none [] names
    | names => tree.walk (some (readAbove 1)) [] names

/-- The text of a file that need not be there. A directory in its place is there, but has no
text. -/
def readIfThere (tree : FileTree) (path : String) : Option Contents :=
  match tree.read path with
  | .error .notFound => none
  | .error .notDirectory => none
  | .error .nameTooLong => none
  | contents => some contents

end FileTree

end Taskboard
