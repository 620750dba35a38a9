/-!
# Failures of reading and writing

Everything outside the compiler that can go wrong: a path that leads nowhere, a directory
where a file is needed, a stream that breaks off. A failure is kept as its cause; its wording
is decided once, in `IoFailure.message`.
-/

namespace ForthAsm

/-- Why a read or a write did not happen. -/
inductive IoFailure where
  /-- Nothing has the given name. -/
  | notFound
  /-- A path leads through something that is not a directory. -/
  | notDirectory
  /-- A directory stands where a regular file is needed. -/
  | isDirectory
  /-- A name or a whole path is longer than the system takes. -/
  | nameTooLong
  /-- The path holds a NUL character, which no file name can hold. -/
  | nulInPath
  /-- Any other cause, in the words of the device that reports it. -/
  | other (message : String)
  deriving DecidableEq, Repr

/-- The text shown for a failure, with the system's number where the system reports it. -/
def IoFailure.message : IoFailure → String
  | notFound => "No such file or directory (os error 2)"
  | notDirectory => "Not a directory (os error 20)"
  | isDirectory => "Is a directory (os error 21)"
  | nameTooLong => "File name too long (os error 36)"
  | nulInPath => "file name contained an unexpected NUL byte"
  | other message => message

end ForthAsm
