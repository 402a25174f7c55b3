/-!
# Access to files

What the program asks of the place where it runs, as functions in a monad. The program is written
against these functions only, so that it runs on a disk as well as on a `FileTree` in memory.

## Main definitions

* `FileError`: why a file cannot be read
* `FileAccess`: the functions
* `FileAccess.nearest?`: the first directory of a list that holds a file of a given name
-/

namespace NaturalDeduction

/-- Why a file cannot be read. -/
inductive FileError where
  | notFound
  /-- The path goes on behind something that is no directory. -/
  | notDirectory
  | isDirectory
  /-- A name in the path, or the path itself, is longer than the operating system allows. -/
  | nameTooLong
  /-- The content is not UTF-8. -/
  | notText
  | other (description : String)
deriving DecidableEq, Repr

/-- The error in words. The numbers are those of the operating system. -/
def FileError.message : FileError → String
  | notFound => "No such file or directory (os error 2)"
  | notDirectory => "Not a directory (os error 20)"
  | isDirectory => "Is a directory (os error 21)"
  | nameTooLong => "File name too long (os error 36)"
  | notText => "stream did not contain valid UTF-8"
  | other description => description

/-- The text of a file with the given content. -/
def FileError.decode (content : ByteArray) : Except FileError String :=
  match String.fromUTF8? content with
  | some text => .ok text
  | none => .error .notText

/-- Access to files, with effects in `m`. -/
structure FileAccess (m : Type → Type) where
  /-- The text of the file at a path. -/
  readText : String → m (Except FileError String)
  /-- Whether there is a file, and not a directory, at a path. -/
  isFile : String → m Bool
  /-- The full paths of the working directory and of those around it, the innermost first. -/
  directories : m (List String)

namespace FileAccess

/-- The path of an entry of a directory. -/
def join (directory name : String) : String :=
  if directory.endsWith "/" then directory ++ name else directory ++ "/" ++ name

/-- The path of the file called `name` in the first of the directories that has one. -/
def nearest? {m : Type → Type} [Monad m] (files : FileAccess m) (name : String) :
    List String → m (Option String)
  | [] => pure none
  | directory :: others => do
    if ← files.isFile (join directory name) then return some (join directory name)
    files.nearest? name others

end FileAccess

end NaturalDeduction
