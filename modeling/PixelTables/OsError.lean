/-!
# Refusals of the operating system

The reasons for which a path cannot be opened, or what it names takes no bytes. The common ones have
names; any other one is told in the system's own words.

## Main Definitions

* `OsError` — one reason
* `OsError.message` — its wording, with the system's number where it has one
-/

namespace PixelTables

/-- A reason of the operating system to refuse an operation. -/
inductive OsError where
  /-- A name on the path does not exist. -/
  | notFound
  /-- The path names a directory where a file is needed. -/
  | isADirectory
  /-- A name inside the path is not a directory. -/
  | notADirectory
  /-- The path, or one name of it, is too long. -/
  | invalidFilename
  /-- The path leads through too many links. -/
  | tooManyLinks
  /-- The device is full. -/
  | storageFull
  /-- The path names something that exists already. -/
  | alreadyExists
  /-- What the path names does not take the bytes. -/
  | invalidArgument
  /-- What the path names takes no bytes at all. -/
  | inputOutput
  /-- The path names a program that is running. -/
  | textFileBusy
  /-- There is no device behind the path. -/
  | noSuchDevice
  /-- What the path names cannot be changed or removed. -/
  | notPermitted
  /-- What the path names is not for writing. -/
  | permissionDenied
  /-- The path holds a NUL character. -/
  | invalidInput
  /-- Any other reason, with the number and the words that the system has for it. -/
  | other (number : Nat) (words : String)
  deriving DecidableEq, Repr

/-- The wording of a refusal. -/
def OsError.message : OsError → String
  | .notFound => "No such file or directory (os error 2)"
  | .isADirectory => "Is a directory (os error 21)"
  | .notADirectory => "Not a directory (os error 20)"
  | .invalidFilename => "File name too long (os error 36)"
  | .tooManyLinks => "Too many levels of symbolic links (os error 40)"
  | .storageFull => "No space left on device (os error 28)"
  | .alreadyExists => "File exists (os error 17)"
  | .invalidArgument => "Invalid argument (os error 22)"
  | .inputOutput => "Input/output error (os error 5)"
  | .textFileBusy => "Text file busy (os error 26)"
  | .noSuchDevice => "No such device or address (os error 6)"
  | .notPermitted => "Operation not permitted (os error 1)"
  | .permissionDenied => "Permission denied (os error 13)"
  | .invalidInput => "file name contained an unexpected NUL byte"
  | .other number words => words ++ " (os error " ++ Nat.repr number ++ ")"

end PixelTables
