import IntentContract.Files.Host
import IntentContract.Files.Path
import IntentContract.Time.Clock

/-!
# File trees

A file tree is a working directory with all that is in it, as a value. Paths start from the working
directory or from the root; out of the working directory only the root and the directories above
are known. Names and paths have a greatest length. The tree with what has been printed and a clock
makes up a **world**, in which every command can be run.
-/

namespace IntentContract

/-- Where something is, by the names from the working directory on. Out of it the names come behind
two dots for each directory further up, or behind the slash of the root. -/
abbrev Location := List String

/-- What is at a location. -/
inductive FileTree.Entry where
  | directory
  | file (text : String)
  deriving DecidableEq

/-- **A file tree**: what is where, each location once. -/
structure FileTree where
  entries : List (Location × FileTree.Entry)

namespace FileTree

/-- A part of a location that leads up, or the root. -/
def isLandmark (part : String) : Bool :=
  part = ".." || part = "/"

/-- What is at a location; the working directory, those above it and the root are always there. -/
def get? (t : FileTree) (l : Location) : Option Entry :=
  if l.all isLandmark then some .directory else (t.entries.find? fun e => e.1 == l).map (·.2)

/-- Puts an entry into a list, in place of an earlier one at its location. -/
def putInto (l : Location) (entry : Entry) : List (Location × Entry) → List (Location × Entry)
  | [] => [(l, entry)]
  | e :: rest => if e.1 = l then (l, entry) :: rest else e :: putInto l entry rest

/-- Puts an entry at a location. -/
def put (t : FileTree) (l : Location) (entry : Entry) : FileTree :=
  ⟨putInto l entry t.entries⟩

/-- The length of the longest name, in bytes. -/
def maxName : Nat := 255

/-- The length of the longest path, in bytes. -/
def maxPath : Nat := 4095

/-- The parts of a path that can be followed. -/
def partsOf (path : String) : Except FileFault (List String) :=
  if path.toList.any fun c => c.toNat == 0 then .error .nullCharacter
  else if maxPath < path.utf8ByteSize then .error .nameTooLong
  else if path = "" then .error .notFound
  else .ok (Path.parts path)

/-- The location that a path starts from. -/
def start (path : String) : Location :=
  if Path.isAbsolute path then ["/"] else []

/-- The directory that a directory is in; the root is in itself. -/
def above (l : Location) : Location :=
  match l.getLast? with
  | none => [".."]
  | some part =>
    if part = ".." then l ++ [".."]
    else if part = "/" then l
    else l.dropLast

/-- The step that a part of a path makes from a location. -/
def step? (l : Location) (part : String) : Except FileFault Location :=
  if Path.isIdle part then .ok l
  else if part = ".." then .ok (above l)
  else if maxName < part.utf8ByteSize then .error .nameTooLong
  else .ok (l ++ [part])

/-- Follows the parts of a path. Every step is made from a directory. -/
def follow (t : FileTree) : Location → List String → Except FileFault Location
  | l, [] => .ok l
  | l, part :: rest =>
    match t.get? l with
    | none => .error .notFound
    | some (.file _) => .error .notDirectory
    | some .directory => do t.follow (← step? l part) rest

/-- **The location that a path leads to**; something need not be there. -/
def locate (t : FileTree) (path : String) : Except FileFault Location := do
  t.follow (start path) (← partsOf path)

/-- The location of the directory that parts lead to. -/
def directoryAt (t : FileTree) (l : Location) (parts : List String) :
    Except FileFault Location := do
  let l ← t.follow l parts
  match t.get? l with
  | some .directory => .ok l
  | some (.file _) => .error .notDirectory
  | none => .error .notFound

/-- What is at the end of a path. -/
def lookup (t : FileTree) (path : String) : Except FileFault Entry := do
  match t.get? (← t.locate path) with
  | some entry => .ok entry
  | none => .error .notFound

/-- The text of a file. -/
def readText (t : FileTree) (path : String) : Except FileFault String := do
  match ← t.lookup path with
  | .file text => .ok text
  | .directory => .error .isDirectory

/-- Whether a path leads to a file. -/
def isFile (t : FileTree) (path : String) : Bool :=
  match t.lookup path with
  | .ok (.file _) => true
  | _ => false

/-- Whether a path leads to a directory. -/
def isDirectory (t : FileTree) (path : String) : Bool :=
  match t.lookup path with
  | .ok .directory => true
  | _ => false

/-- The name of an entry that is in a directory itself. -/
def childName? (directory l : Location) : Option String :=
  match l.reverse with
  | [] => none
  | name :: front => if front.reverse = directory then some name else none

/-- The names in a directory. -/
def childNames (t : FileTree) (path : String) : Except FileFault (List String) := do
  let l ← t.locate path
  match t.get? l with
  | none => .error .notFound
  | some (.file _) => .error .notDirectory
  | some .directory => .ok (t.entries.filterMap fun e => childName? l e.1)

/-- The location of the directory that something is created in, and the last part of its path.
Slashes at the end do not count. -/
def place (t : FileTree) (path : String) : Except FileFault (Location × String) := do
  match ((← partsOf path).filter (· != "")).reverse with
  | [] => return (start path, ".")
  | last :: front => return (← t.directoryAt (start path) front.reverse, last)

/-- A part that leads to a directory which is there already. -/
def isDots (part : String) : Bool :=
  part = "." || part = ".."

/-- Creates a single directory. -/
def createOne (t : FileTree) (path : String) : Except FileFault FileTree := do
  let (directory, last) ← t.place path
  if isDots last then .error .exists
  else
    let l ← step? directory last
    match t.get? l with
    | some _ => .error .exists
    | none => .ok (t.put l .directory)

/-- What becomes of an attempt to create a directory: that it is there already is no fault. -/
def created (t : FileTree) (path : String) :
    Except FileFault FileTree → Except FileFault Unit × FileTree
  | .ok t => (.ok (), t)
  | .error fault => (if t.isDirectory path then .ok () else .error fault, t)

/-- Creates the first of the directories. If the directory to put it in is missing, that one, which
is the next, is created before. What has been created stays even if a later step fails. -/
def createAll (t : FileTree) : List String → Except FileFault Unit × FileTree
  | [] => (.ok (), t)
  | path :: outer =>
    match t.createOne path with
    | .error .notFound =>
      match t.createAll outer with
      | (.ok (), t) => t.created path (t.createOne path)
      | (.error fault, t) => (.error fault, t)
    | result => t.created path result

/-- Creates a directory, with the directories it is in. -/
def createDirectory (t : FileTree) (path : String) : Except FileFault Unit × FileTree :=
  t.createAll (path :: Path.enclosing (Path.backwards path))

/-- Creates or replaces a file. A path with a slash at its end is none of a file. -/
def writeText (t : FileTree) (path text : String) : Except FileFault FileTree := do
  let (directory, last) ← t.place path
  if isDots last || Path.endsInSlash path then .error .isDirectory
  else
    let l ← step? directory last
    match t.get? l with
    | some .directory => .error .isDirectory
    | _ => .ok (t.put l (.file text))

/-- Adds a file to a tree with the directories it is in; a path that ends in a slash is a
directory. -/
def add (t : FileTree) (path text : String) : FileTree :=
  let location := (Path.parts path).filter fun p => !Path.isIdle p
  let isDirectory := Path.endsInSlash path
  let t := (List.range location.length).foldl (fun t n =>
    let l := location.take n
    if (t.get? l).isSome then t else t.put l .directory) t
  t.put location (if isDirectory then .directory else .file text)

/-- **The tree of files** with their paths. -/
def ofFiles (files : List (String × String)) : FileTree :=
  files.foldl (fun t (path, text) => t.add path text) ⟨[]⟩

/-- The files in the working directory and below, with their paths. -/
def files (t : FileTree) : List (String × String) :=
  t.entries.filterMap fun (l, entry) =>
    match entry with
    | .file text => if l.any isLandmark then none else some (Text.join "/" l, text)
    | .directory => none

end FileTree

/-- **A world**: a file tree, what has been printed, and a clock. -/
structure World where
  tree : FileTree
  output : String
  time : Clock

namespace World

/-- Takes a step that may change the tree. -/
def change (step : FileTree → Except FileFault Unit × FileTree) :
    StateM World (Except FileFault Unit) :=
  modifyGet fun w =>
    let (result, tree) := step w.tree
    (result, { w with tree })

/-- A step that changes the tree if it is possible. -/
def orKept (step : FileTree → Except FileFault FileTree) (t : FileTree) :
    Except FileFault Unit × FileTree :=
  match step t with
  | .ok t => (.ok (), t)
  | .error fault => (.error fault, t)

/-- Reads the clock, which goes on from there. -/
def readClock {α : Type} (shows : Clock → Nat → α) : StateM World α :=
  modifyGet fun w => (shows w.time 0, { w with time := w.time.after 1 })

/-- A world is a host. -/
instance : Host (StateM World) where
  readText path := return (← get).tree.readText path
  isFile path := return (← get).tree.isFile path
  isDirectory path := return (← get).tree.isDirectory path
  entries path := return (← get).tree.childNames path
  createDirectory path := change fun t => t.createDirectory path
  writeText path text := change (orKept fun t => t.writeText path text)
  print text := modify fun w => { w with output := w.output ++ text }
  now := readClock Clock.instant
  milliseconds := readClock Clock.milliseconds

end World

end IntentContract
