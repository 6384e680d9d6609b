/-!
# Why an operation on files fails

- `FileError` lists the reasons, `FileError.message` gives their texts.
-/

namespace TableExport

/-- The reason why an operation on a file fails. -/
inductive FileError where
  /-- There is nothing at the path. -/
  | notFound
  /-- A file stands where a directory is needed. -/
  | notDirectory
  /-- A directory stands where a file is needed. -/
  | isDirectory
  /-- There is something at the path already. -/
  | exists
  /-- The path or a name in it is too long. -/
  | nameTooLong
  | nulInName
  /-- The file does not hold UTF-8 text. -/
  | notText
  /-- Any other reason that the system gives. -/
  | other (text : String)
deriving Repr, DecidableEq

/-- The text of a reason. -/
def FileError.message : FileError → String
  | notFound => "No such file or directory (os error 2)"
  | notDirectory => "Not a directory (os error 20)"
  | isDirectory => "Is a directory (os error 21)"
  | .exists => "File exists (os error 17)"
  | nameTooLong => "File name too long (os error 36)"
  | nulInName => "file name contained an unexpected NUL byte"
  | notText => "stream did not contain valid UTF-8"
  | other text => text

end TableExport
