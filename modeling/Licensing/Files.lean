/-!
# Reading files

What the file system gives for a path is a parameter of everything that reads files: a function
from paths to contents. A path that cannot be read has a reason, in the words of the operating
system.
-/

namespace Licensing

/-- Why a file cannot be read. -/
inductive FileError where
  /-- There is no such file. -/
  | notFound
  /-- A directory stands there. -/
  | isDirectory
  /-- A part of the path is no directory. -/
  | notDirectory
  /-- A name in the path is too long. -/
  | nameTooLong
  /-- The path holds a null character. -/
  | nullInName
deriving DecidableEq, Inhabited

/-- The reason in words. -/
def FileError.message : FileError → String
  | .notFound => "No such file or directory (os error 2)"
  | .isDirectory => "Is a directory (os error 21)"
  | .notDirectory => "Not a directory (os error 20)"
  | .nameTooLong => "File name too long (os error 36)"
  | .nullInName => "file name contained an unexpected NUL byte"

/-- The content of the file at a path, or why there is none. -/
abbrev FileReader := String → Except FileError ByteArray

end Licensing
