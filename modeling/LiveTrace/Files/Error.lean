/-
  Why an operation on files failed.
-/
namespace LiveTrace

inductive IoError where
  | notFound
  | exists
  | notDirectory
  | isDirectory
  | nameTooLong
  | notUtf8
  | nulInName
  | notRegular
  deriving DecidableEq, Repr

def IoError.message : IoError → String
  | .notFound => "No such file or directory (os error 2)"
  | .exists => "File exists (os error 17)"
  | .notDirectory => "Not a directory (os error 20)"
  | .isDirectory => "Is a directory (os error 21)"
  | .nameTooLong => "File name too long (os error 36)"
  | .notUtf8 => "stream did not contain valid UTF-8"
  | .nulInName => "file name contained an unexpected NUL byte"
  | .notRegular => "the source path is neither a regular file nor a symlink to a regular file"

end LiveTrace
