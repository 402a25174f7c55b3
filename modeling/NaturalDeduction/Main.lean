import NaturalDeduction.CommandLine.Program
import NaturalDeduction.Files.Tree

/-!
# The command line on a disk

This module only connects `CommandLine.run` with the files and the streams of the process.
-/

namespace NaturalDeduction.CommandLine

/-- The number of an error of the operating system; a library may report it with the
sign changed. -/
def errorNumber (code : UInt32) : UInt32 := if code ≤ 0x7fffffff then code else 0 - code

/-- Why a file cannot be read, from the error that was raised. -/
def fileError : IO.Error → FileError
  | .noFileOrDirectory .. => .notFound
  | .permissionDenied .. => .other "Permission denied (os error 13)"
  | .inappropriateType _ code details | .invalidArgument _ code details =>
    if errorNumber code = 20 then .notDirectory
    else if errorNumber code = 21 then .isDirectory
    else if errorNumber code = 36 then .nameTooLong
    else .other details
  | error => .other (toString error)

/-- The directories from the one with the given path up to the root. -/
def enclosing (path : String) : List String :=
  (FileTree.upwards ((path.splitOn "/").filter (· ≠ ""))).map FileTree.fullPath

/-- Access to the files on the disk. -/
def diskAccess : FileAccess IO where
  readText path := do
    try return FileError.decode (← IO.FS.readBinFile path)
    catch error => return .error (fileError error)
  isFile path := do
    try return (← (← IO.FS.realPath path).metadata).type matches .file
    catch _ => return false
  directories := do
    return enclosing (← IO.FS.realPath (← IO.currentDir)).toString

end NaturalDeduction.CommandLine

open NaturalDeduction

/-- Grades the assignments that the arguments name. -/
def main (arguments : List String) : IO UInt32 := do
  let response ← CommandLine.run CommandLine.diskAccess arguments
  IO.print response.output
  IO.eprint response.errors
  return response.status
