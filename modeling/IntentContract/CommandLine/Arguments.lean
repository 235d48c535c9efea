import IntentContract.Conformance.DocumentRules
import IntentContract.Generated.Names

/-!
# Arguments of the command line

The arguments are options of the program, the name of a command, and the options and operands of
that command. An option is written `--name`, its value behind an equals sign or as the next
argument; some have a letter, and letters may be run together. Behind `--` there are operands
only. The first thing that is wrong, or that asks for help, decides, with one exception: a value
that stands by itself right in front of the command is only looked at behind the arguments of the
command.
-/

namespace IntentContract

/-- **What the program is asked to do.** -/
inductive Command where
  /-- Generate modules and linked data, in the given flavors or the configured one. -/
  | compile (file out : String) (flavors : Option (List Flavor))
  /-- Print the contract. -/
  | model (file : String)
  /-- Check a definition. -/
  | validate (file : String) (rules : Option String) (json : Bool)
  /-- Check a document. -/
  | check (file : String) (kind : DocumentKind) (rules : Option String) (json : Bool)
  /-- Run scenarios. -/
  | test (paths : List String) (report : Option String)
  /-- Print the hash of the contract. -/
  | hash (file : String)
  /-- Print the version. -/
  | version

/-- **A call of the program.** -/
structure Invocation where
  /-- The file of the configuration, if it is not the usual one. -/
  config : Option String
  /-- Whether only failures are printed. -/
  quiet : Bool
  command : Command

/-- Why arguments are no call. -/
inductive Usage where
  /-- Help is asked for. -/
  | help
  /-- The version is asked for. -/
  | version
  /-- The arguments are wrong. -/
  | mistake
  deriving DecidableEq

/-- The exit status after such arguments. -/
def Usage.exitStatus : Usage → Nat
  | .help => 0
  | .version => 0
  | .mistake => 2

namespace Arguments

/-! ## Options -/

/-- What an option is followed by. -/
inductive OptionKind where
  /-- Nothing. -/
  | switch
  /-- A value that passes a test. -/
  | valued (isValue : String → Bool)
  /-- Nothing, and no command is run. -/
  | ending (usage : Usage)

/-- **An option.** -/
structure OptionSpec where
  name : String
  letter : Option Char
  kind : OptionKind

/-- A path; it must not be empty. -/
def isPath (s : String) : Bool :=
  s != ""

/-- The options that may stand in front of the command and behind it. -/
def sharedOptions : List OptionSpec :=
  [⟨"config", none, .valued isPath⟩, ⟨"quiet", some 'q', .switch⟩,
    ⟨"verbose", some 'v', .switch⟩, ⟨"help", some 'h', .ending .help⟩]

/-- The options in front of the command. -/
def programOptions : List OptionSpec :=
  ⟨"version", some 'V', .ending .version⟩ :: sharedOptions

/-- The names of flavors, and what each of them stands for. -/
def flavorChoices : List (String × List Flavor) :=
  [("ts", [.typeScript]), ("js", [.javaScript]), ("all", [.typeScript, .javaScript])]

/-- The names of kinds of documents. -/
def kindChoices : List (String × DocumentKind) :=
  [("delegation", .delegation), ("execution", .execution)]

/-- One of the names in a list of choices. -/
def isChoice {α : Type} (choices : List (String × α)) (s : String) : Bool :=
  (Keyed.get? s choices).isSome

/-! ## Taking arguments apart -/

/-- What has been given: options with their values, and operands. -/
structure Given where
  options : List (String × String)
  operands : List String

namespace Given

/-- Nothing. -/
def nothing : Given where
  options := []
  operands := []

/-- Whether an option has been given. -/
def has (g : Given) (name : String) : Bool :=
  (Keyed.get? name g.options).isSome

/-- The value of an option. -/
def value? (g : Given) (name : String) : Option String :=
  Keyed.get? name g.options

/-- One more option; none can be given twice. -/
def withOption (g : Given) (name value : String) : Except Usage Given :=
  if g.has name then .error .mistake else .ok { g with options := g.options ++ [(name, value)] }

/-- One more operand. There are at most `limit` of them, if there is a limit, and each of them is a
path. -/
def withOperand (limit : Option Nat) (g : Given) (operand : String) : Except Usage Given :=
  if isPath operand && limit.all (g.operands.length < ·) then
    .ok { g with operands := g.operands ++ [operand] }
  else .error .mistake

end Given

/-- An argument that is no operand: it starts with a dash and goes on. -/
def looksLikeOption (argument : String) : Bool :=
  match argument.toList with
  | '-' :: _ :: _ => true
  | _ => false

/-- The name of an option and the value behind its equals sign. -/
def splitEquals (cs : List Char) : String × Option String :=
  let name := String.ofList (cs.takeWhile (· != '='))
  match cs.dropWhile (· != '=') with
  | [] => (name, none)
  | _ :: value => (name, some (String.ofList value))

/-- Gives the options that letters stand for. -/
def letters (specs : List OptionSpec) : Given → List Char → Except Usage Given
  | g, [] => .ok g
  | g, c :: rest =>
    match specs.find? fun s => s.letter == some c with
    | none => .error .mistake
    | some spec =>
      match spec.kind with
      | .switch => do letters specs (← g.withOption spec.name "") rest
      | .ending usage => .error usage
      | .valued _ => .error .mistake

/-- An option with a value. -/
def valued (isValue : String → Bool) (g : Given) (name value : String) : Except Usage Given :=
  if isValue value then g.withOption name value else .error .mistake

/-- Arguments that have been taken apart. -/
structure Collected where
  /-- What has been given, once its last value is looked at. -/
  given : Except Usage Given
  /-- What is left over. -/
  rest : List String

/-- An argument that starts with no dash, or is nothing but one. -/
def startsWithOperand : List String → Bool
  | [] => false
  | argument :: _ => !looksLikeOption argument

/-- **Takes arguments apart.** With `stopsAtOperand`, what follows from the first operand on is left
over, and the value of an option right in front of it is not looked at yet. -/
def collect (specs : List OptionSpec) (limit : Option Nat) (stopsAtOperand : Bool) :
    Given → List String → Except Usage Collected
  | g, [] => .ok ⟨.ok g, []⟩
  | g, argument :: rest =>
    match argument.toList with
    | ['-', '-'] =>
      if stopsAtOperand then .error .mistake
      else do return ⟨.ok (← rest.foldlM (Given.withOperand limit) g), []⟩
    | '-' :: '-' :: name =>
      let (name, value) := splitEquals name
      match specs.find? fun s => s.name == name with
      | none => .error .mistake
      | some spec =>
        match spec.kind, value with
        | .switch, none => do collect specs limit stopsAtOperand (← g.withOption name "") rest
        | .ending usage, none => .error usage
        | .valued isValue, some value => do
          collect specs limit stopsAtOperand (← valued isValue g name value) rest
        | .valued isValue, none =>
          match rest with
          | [] => .error .mistake
          | value :: rest =>
            if looksLikeOption value then .error .mistake
            else if stopsAtOperand && startsWithOperand rest then
              .ok ⟨valued isValue g name value, rest⟩
            else do collect specs limit stopsAtOperand (← valued isValue g name value) rest
        | _, some _ => .error .mistake
    | '-' :: c :: cs => do
      collect specs limit stopsAtOperand (← letters specs g (c :: cs)) rest
    | _ =>
      if stopsAtOperand then .ok ⟨.ok g, argument :: rest⟩
      else do collect specs limit stopsAtOperand (← g.withOperand limit argument) rest

/-! ## Commands -/

/-- What a command takes, and how it is made of that. -/
structure CommandSpec where
  name : String
  options : List OptionSpec
  /-- The number of operands, any number from one on if there is none. -/
  operands : Option Nat
  make : Given → Option Command

/-- The options of a command that checks something. -/
def checkOptions : List OptionSpec :=
  [⟨"rules", none, .valued isPath⟩, ⟨"json", none, .switch⟩]

/-- **The commands.** -/
def commands : List CommandSpec :=
  [{ name := "compile"
     options := [⟨"out", none, .valued isPath⟩,
       ⟨"flavor", none, .valued (isChoice flavorChoices)⟩]
     operands := some 1
     make := fun g => do
       let file ← g.operands.head?
       let flavors := (g.value? "flavor").bind fun f => Keyed.get? f flavorChoices
       return .compile file ((g.value? "out").getD "generated") flavors },
   { name := "model"
     options := []
     operands := some 1
     make := fun g => g.operands.head?.map .model },
   { name := "validate"
     options := checkOptions
     operands := some 1
     make := fun g => do
       return .validate (← g.operands.head?) (g.value? "rules") (g.has "json") },
   { name := "check"
     options := ⟨"kind", none, .valued (isChoice kindChoices)⟩ :: checkOptions
     operands := some 1
     make := fun g => do
       let file ← g.operands.head?
       let kind ← Keyed.get? (← g.value? "kind") kindChoices
       return .check file kind (g.value? "rules") (g.has "json") },
   { name := "test"
     options := [⟨"junit", none, .valued isPath⟩]
     operands := none
     make := fun g =>
       if g.operands.isEmpty then none else some (.test g.operands (g.value? "junit")) },
   { name := "hash"
     options := []
     operands := some 1
     make := fun g => g.operands.head?.map .hash },
   { name := "version"
     options := []
     operands := some 0
     make := fun _ => some .version }]

/-- Whether both of two options that exclude each other have been given. -/
def isContradictory (g : Given) : Bool :=
  g.has "quiet" && g.has "verbose"

/-- The outcome of asking for help on the commands with the given names. -/
def help : List String → Usage
  | [] => .help
  | [name] => if name = "help" || commands.any (·.name == name) then .help else .mistake
  | _ => .mistake

/-- The options and the command that the arguments of a command give. -/
def parseCommand (spec : CommandSpec) (arguments : List String) :
    Except Usage (Given × Command) := do
  let collected ← collect (spec.options ++ sharedOptions) spec.operands false .nothing arguments
  let g ← collected.given
  if isContradictory g then .error .mistake
  else
    match spec.make g with
    | none => .error .mistake
    | some command => .ok (g, command)

/-- **Reads the arguments of the program.** -/
def parse (arguments : List String) : Except Usage Invocation := do
  let collected ← collect programOptions none true .nothing arguments
  match collected.rest with
  | [] => .error .mistake
  | "help" :: names => .error (help names)
  | name :: rest =>
    match commands.find? fun s => s.name == name with
    | none => .error .mistake
    | some spec =>
      let (own, command) ← parseCommand spec rest
      let shared ← collected.given
      if isContradictory shared then .error .mistake
      else
        .ok {
          config := (own.value? "config").or (shared.value? "config")
          quiet := own.has "quiet" || shared.has "quiet"
          command }

end Arguments

end IntentContract
