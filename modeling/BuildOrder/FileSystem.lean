/-! What is asked of the files around a program. -/
namespace BuildOrder

/-- Why a path cannot be read. -/
inductive ReadError where
  | notFound
  | notDirectory
  | isDirectory
  | nameTooLong
  | nulInPath
  /-- Anything else, such as a missing permission, in the words of the system. -/
  | other (reason : String)
  deriving DecidableEq

def ReadError.message : ReadError → String
  | notFound => "No such file or directory (os error 2)"
  | notDirectory => "Not a directory (os error 20)"
  | isDirectory => "Is a directory (os error 21)"
  | nameTooLong => "File name too long (os error 36)"
  | nulInPath => "file name contained an unexpected NUL byte"
  | other reason => reason

/-- The answers that files give. Links are followed. -/
structure FileSystem where
  /-- The bytes at a path. -/
  read : String → Except ReadError (List UInt8)
  isFile : String → Bool
  isDirectory : String → Bool
  /-- The absolute path of the current directory. -/
  currentDirectory : Except ReadError String

end BuildOrder
