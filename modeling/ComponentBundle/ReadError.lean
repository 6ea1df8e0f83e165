/-!
# Read errors

Why a file could not be read as text, with the operating system's wording.
-/

namespace ComponentBundle

/-- Why a file could not be read as text. -/
inductive ReadError where
  | notFound
  /-- The path goes through something that is no directory. -/
  | notDirectory
  | isDirectory
  | nameTooLong
  /-- The path holds a null character. -/
  | nullInPath
  /-- The bytes of the file are not UTF-8. -/
  | notText
  deriving DecidableEq

def ReadError.message : ReadError → String
  | notFound => "No such file or directory (os error 2)"
  | notDirectory => "Not a directory (os error 20)"
  | isDirectory => "Is a directory (os error 21)"
  | nameTooLong => "File name too long (os error 36)"
  | nullInPath => "file name contained an unexpected NUL byte"
  | notText => "stream did not contain valid UTF-8"

end ComponentBundle
