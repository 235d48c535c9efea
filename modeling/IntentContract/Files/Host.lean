import IntentContract.Time.Timestamp

/-!
# What a program asks of its host

Files, output and the time are reached through a class, so that the commands can be run on the
machine as well as on a file tree that is a plain value.
-/

namespace IntentContract

/-- **Why a file could not be reached.** -/
inductive FileFault where
  | notFound
  | exists
  | notDirectory
  | isDirectory
  /-- A name or the whole path is too long. -/
  | nameTooLong
  /-- The path holds the character that ends texts of the system. -/
  | nullCharacter
  /-- Some other reason of the host, in its words. -/
  | other (reason : String)
  deriving DecidableEq

/-- The words for a fault, with the number that systems give it. -/
def FileFault.text : FileFault → String
  | .notFound => "No such file or directory (os error 2)"
  | .exists => "File exists (os error 17)"
  | .notDirectory => "Not a directory (os error 20)"
  | .isDirectory => "Is a directory (os error 21)"
  | .nameTooLong => "File name too long (os error 36)"
  | .nullCharacter => "file name contained an unexpected NUL byte"
  | .other reason => reason

/-- **A host.** -/
class Host (m : Type → Type) where
  /-- The text of a file. -/
  readText : String → m (Except FileFault String)
  /-- Whether a path leads to a file. -/
  isFile : String → m Bool
  /-- Whether a path leads to a directory. -/
  isDirectory : String → m Bool
  /-- The names in a directory. -/
  entries : String → m (Except FileFault (List String))
  /-- Creates a directory, with the directories it is in. -/
  createDirectory : String → m (Except FileFault Unit)
  /-- Creates or replaces a file. -/
  writeText : String → String → m (Except FileFault Unit)
  /-- Writes to the standard output. -/
  print : String → m Unit
  /-- The current time. -/
  now : m Instant
  /-- A clock that counts milliseconds. -/
  milliseconds : m Nat

end IntentContract
