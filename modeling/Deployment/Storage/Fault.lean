/-! # Faults of the storage

* **`StorageFault`** — why files could not be used, with `StorageFault.message` as its text. -/

namespace Deployment

/-- Why files could not be used. -/
inductive StorageFault where
  | notFound
  | notADirectory
  | isADirectory
  | alreadyExists
  | busy
  | full
  | nameTooLong
  /-- A file that refuses to be written was to be opened for that. -/
  | refused
  /-- A name holds a character that no name may hold. -/
  | zeroCharacter
  /-- A file that never ends was read. -/
  | endless
  /-- A file that should hold text does not. -/
  | notText
  /-- The storage refuses an operation. -/
  | down (operation : String)
  deriving DecidableEq, Repr

/-- The text of a fault. -/
def StorageFault.message : StorageFault → String
  | .notFound => "No such file or directory (os error 2)"
  | .notADirectory => "Not a directory (os error 20)"
  | .isADirectory => "Is a directory (os error 21)"
  | .alreadyExists => "File exists (os error 17)"
  | .busy => "Device or resource busy (os error 16)"
  | .full => "No space left on device (os error 28)"
  | .nameTooLong => "File name too long (os error 36)"
  | .refused => "Permission denied (os error 13)"
  | .zeroCharacter => "file name contained an unexpected NUL byte"
  | .endless => "out of memory"
  | .notText => "stream did not contain valid UTF-8"
  | .down operation => operation ++ " is down"

end Deployment
