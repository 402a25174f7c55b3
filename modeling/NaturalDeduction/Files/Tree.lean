import NaturalDeduction.Files.Access

/-!
# Files in memory

A directory tree as a value. A path is followed name by name; each name, also an empty one, `.` or
`..`, needs a directory to be looked up in, so `a.txt/` and `a.txt/..` lead nowhere if `a.txt` is a
file. The directory around the outermost one is that directory itself.

## Main definitions

* `FileTree`, `FileTree.put`
* `FileTree.resolve`: where a path leads
* `FileTree.access`: reading the files from a working directory
-/

namespace NaturalDeduction

/-- A file or a directory. -/
inductive FileTree where
  | file (content : ByteArray)
  | directory (entries : List (String × FileTree))

namespace FileTree

/-- The part of a tree that names lead to from its top. -/
def get? : (names : List String) → FileTree → Option FileTree
  | [], tree => some tree
  | _ :: _, .file _ => none
  | name :: names, .directory entries => (entries.lookup name).bind (get? names)

/-- The tree with `part` at the place that names lead to. Directories on the way are made, and a
file on the way gives place to one. -/
def put (part : FileTree) : (names : List String) → FileTree → FileTree
  | [], _ => part
  | name :: names, .file _ => .directory [(name, put part names (.directory []))]
  | name :: names, .directory entries =>
    .directory ((name, put part names ((entries.lookup name).getD (.directory []))) ::
      entries.filter (·.1 ≠ name))

/-- The tree with a directory at the place that names lead to, the one that is there if
there is one. -/
def putDirectory (names : List String) (tree : FileTree) : FileTree :=
  match tree.get? names with
  | some (.directory _) => tree
  | _ => put (.directory []) names tree

/-! ### Paths -/

/-- The names in a path, also the empty ones. -/
def pathNames (path : String) : List String := path.splitOn "/"

/-- The largest number of bytes in a name. -/
def nameLimit : Nat := 255

/-- The largest number of bytes in a path. -/
def pathLimit : Nat := 4095

/-- The place that one more name leads to. Places are lists of names from the top. -/
def step (tree : FileTree) (place : List String) (name : String) : Except FileError (List String) :=
  match tree.get? place with
  | some (.directory entries) =>
    if name = "" ∨ name = "." then .ok place
    else if name = ".." then .ok place.dropLast
    else if nameLimit < name.utf8ByteSize then .error .nameTooLong
    else if (entries.lookup name).isSome then .ok (place ++ [name])
    else .error .notFound
  | _ => .error .notDirectory

/-- The place that a path leads to from a working directory. -/
def resolve (tree : FileTree) (working : List String) (path : String) :
    Except FileError (List String) :=
  if path = "" then .error .notFound
  else if pathLimit < path.utf8ByteSize then .error .nameTooLong
  else
    (pathNames path).foldlM tree.step (if path.startsWith "/" then [] else working)

/-- The text of the file that a path leads to. -/
def readText (tree : FileTree) (working : List String) (path : String) : Except FileError String :=
  match tree.resolve working path with
  | .error error => .error error
  | .ok place =>
    match tree.get? place with
    | some (.file content) => FileError.decode content
    | some (.directory _) => .error .isDirectory
    | none => .error .notFound

/-- Whether a path leads to a file. -/
def isFile (tree : FileTree) (working : List String) (path : String) : Bool :=
  match tree.resolve working path with
  | .error _ => false
  | .ok place => tree.get? place matches some (.file _)

/-- The full path of a place. -/
def fullPath (place : List String) : String := "/" ++ "/".intercalate place

/-- The directories from a place up to the top. -/
def upwards : List String → List (List String)
  | [] => [[]]
  | name :: names => (upwards names).map (name :: ·) ++ [[]]

/-- Access to the files of a tree from a working directory. -/
def access (tree : FileTree) (working : List String) : FileAccess Id where
  readText := tree.readText working
  isFile := tree.isFile working
  directories := (upwards working).map fullPath

end FileTree

end NaturalDeduction
