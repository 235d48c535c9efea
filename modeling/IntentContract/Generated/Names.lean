import IntentContract.Contract.Canonical

/-!
# Names of generated files and of what they export

A contract is generated in two **flavors**, with type declarations or with types in comments. The
names of the files are the contract's name in lower case, its words divided by dashes.
-/

namespace IntentContract

/-- The flavor of generated code. -/
inductive Flavor where
  /-- With type declarations. -/
  | typeScript
  /-- With types in comments. -/
  | javaScript
  deriving DecidableEq

namespace Flavor

/-- The full name of a flavor. -/
def name : Flavor → String
  | .typeScript => "typescript"
  | .javaScript => "javascript"

/-- The file extension of a flavor. -/
def extension : Flavor → String
  | .typeScript => "ts"
  | .javaScript => "js"

/-- What an import adds to the name of a module. -/
def importSuffix : Flavor → String
  | .typeScript => ""
  | .javaScript => ".js"

/-- The flavor with a full or a short name, in any case of letters. -/
def ofName? (name : String) : Option Flavor :=
  let lower := name.map Char.toLower
  if lower = "ts" || lower = "typescript" then some .typeScript
  else if lower = "js" || lower = "javascript" then some .javaScript
  else none

/-- The message for a name that is no flavor's. -/
def unknownMessage (name : String) : String :=
  "unknown flavor '" ++ name.map Char.toLower ++ "', expected ts or js"

end Flavor

/-- Whether a capital begins a new word, from the characters before and behind it. -/
def beginsWord (before after : Option Char) : Bool :=
  before.any (fun c => c.isLower || c.isDigit)
    || (before.any Char.isUpper && after.any Char.isLower)

/-- The characters of a name with its words divided by dashes; `before` is the character in
front. -/
def dashedFrom (before : Option Char) : List Char → List Char
  | [] => []
  | c :: rest =>
    let here :=
      if c.isUpper then
        if beginsWord before rest.head? then ['-', c.toLower] else [c.toLower]
      else if c = '_' then ['-']
      else [c]
    here ++ dashedFrom (some c) rest

/-- **A name in lower case with dashes**: a dash goes in front of a capital behind a small letter
or a digit, and of the last of several capitals if a small letter follows it; an underscore
becomes a dash. -/
def dashed (name : String) : String :=
  String.ofList (dashedFrom none name.toList)

/-- The two generated modules of a contract. -/
inductive ModuleKind where
  | client
  | handlers
  deriving DecidableEq

/-- The name of a kind of module, as file names and headers have it. -/
def ModuleKind.name : ModuleKind → String
  | .client => "client"
  | .handlers => "handlers"

namespace Contract

/-- The name of the exported registry of intents. -/
def registryName (c : Contract) : String := c.name ++ "Intents"

/-- The name of the client's type. -/
def clientName (c : Contract) : String := c.name ++ "Client"

/-- The name of the function that makes a client. -/
def factoryName (c : Contract) : String := "create" ++ c.name ++ "Client"

/-- The name of the type of handlers. -/
def handlersName (c : Contract) : String := c.name ++ "Handlers"

/-- The name of the function that registers handlers. -/
def registrarName (c : Contract) : String := "register" ++ c.name ++ "Handlers"

/-- The name of a generated file. -/
def fileName (c : Contract) (flavor : Flavor) (kind : ModuleKind) : String :=
  dashed c.name ++ "." ++ kind.name ++ "." ++ flavor.extension

/-- The module that the handlers import the registry from. -/
def clientImport (c : Contract) (flavor : Flavor) : String :=
  "./" ++ dashed c.name ++ ".client" ++ flavor.importSuffix

end Contract

end IntentContract
