import IntentContract.Text.Join

/-!
# Paths

A path is a text of parts with slashes between them. Slashes at the end, empty parts and parts
that are a single dot do not count, except for a dot in front.
-/

namespace IntentContract.Path

/-- The pieces of a text between slashes, one at least. -/
def splitSlashes : List Char → List (List Char)
  | [] => [[]]
  | c :: rest =>
    if c = '/' then [] :: splitSlashes rest
    else
      match splitSlashes rest with
      | [] => [[c]]
      | part :: parts => (c :: part) :: parts

/-- The parts of a path, those that do not count among them. -/
def parts (path : String) : List String :=
  (splitSlashes path.toList).map String.ofList

/-- A path that does not start from the working directory. -/
def isAbsolute (path : String) : Bool :=
  path.toList.head? == some '/'

/-- A path that can only lead to a directory. -/
def endsInSlash (path : String) : Bool :=
  path.toList.getLast? == some '/'

/-- **A path within a directory**; an absolute one stays as it is. -/
def join (directory path : String) : String :=
  if isAbsolute path || directory = "" then path
  else if endsInSlash directory then directory ++ path
  else directory ++ "/" ++ path

/-- A part that does not count behind another. -/
def isIdle (part : String) : Bool :=
  part = "" || part = "."

/-- The parts from the last to the first, without those at the end that do not count. -/
def trimmed : List String → List String
  | [] => []
  | [part] => [part]
  | part :: rest => if isIdle part then trimmed rest else part :: rest

/-- The parts of a path from the last that counts to the first. -/
def backwards (path : String) : List String :=
  trimmed (parts path).reverse

/-- The text of parts given from the last to the first. -/
def textOf (backwards : List String) : String :=
  if backwards = [""] then "/" else Text.join "/" backwards.reverse

/-- **The directory that a path is in**, empty for the working directory. The empty path and the
root are in none. -/
def parent? (path : String) : Option String :=
  match backwards path with
  | [] => none
  | [""] => none
  | _ :: rest => some (textOf (trimmed rest))

/-- Whether parts given from the last to the first end in one that counts. -/
def endsInName : List String → Bool
  | [] => false
  | [_] => true
  | part :: _ => !isIdle part

/-- The directories that something is in, from the inner to the outer; its path is given by its
parts from the last to the first. The working directory is left out. -/
def enclosing : List String → List String
  | [] => []
  | _ :: rest => if endsInName rest then textOf rest :: enclosing rest else enclosing rest

/-- The last part of a path, if it is a name. -/
def fileName? (path : String) : Option String :=
  match backwards path with
  | [] => none
  | name :: _ => if isIdle name || name = ".." then none else some name

/-- A name cut at its last dot: what is in front and what is behind it. There is no cut without a
dot, or at a dot that is the first character. -/
def cutName (name : String) : String × Option String :=
  let backwards := name.toList.reverse
  match backwards.dropWhile (· != '.') with
  | [] => (name, none)
  | [_] => (name, none)
  | _ :: front =>
    (String.ofList front.reverse, some (String.ofList (backwards.takeWhile (· != '.')).reverse))

/-- The name of a file without its extension, empty if the path ends in none. -/
def stem (path : String) : String :=
  match fileName? path with
  | some name => (cutName name).1
  | none => ""

/-- The extension of a file's name. -/
def extension? (path : String) : Option String :=
  (fileName? path).bind fun name => (cutName name).2

end IntentContract.Path
