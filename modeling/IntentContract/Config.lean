import IntentContract.Conformance.DefinitionRules
import IntentContract.Conformance.DocumentRules
import IntentContract.Files.Host
import IntentContract.Files.Path
import IntentContract.Generated.Names
import IntentContract.Json.Reader
import IntentContract.LinkedData.PrefixTable
import IntentContract.Toml.Reader

/-!
# Configuration

A configuration chooses the flavor of generated code, adds prefixes, and names the files that hold
rules. Everything in it is optional. The paths of rule files start from the directory of the
configuration.
-/

namespace IntentContract

/-- The files that hold rules. -/
structure RuleFiles where
  definition : Option String
  delegation : Option String
  execution : Option String
  deriving DecidableEq

/-- The file with the rules for a kind of document. -/
def RuleFiles.document (r : RuleFiles) : DocumentKind → Option String
  | .delegation => r.delegation
  | .execution => r.execution

/-- **A configuration.** -/
structure Config where
  flavor : Option Flavor
  prefixes : List (String × String)
  rules : RuleFiles
  /-- The directory that rule files are looked for in. -/
  base : Option String
  deriving DecidableEq

namespace Config

/-- The configuration without any choice. -/
def empty : Config where
  flavor := none
  prefixes := []
  rules := ⟨none, none, none⟩
  base := none

/-- The file that a configuration is looked for in. -/
def fileName : String := "agentidl.toml"

/-- The table of the usual prefixes with those of the configuration. -/
def prefixTable (c : Config) : PrefixTable :=
  PrefixTable.withOverrides c.prefixes

/-! ## Records -/

open Json

/-- The JSON record of a configuration, without its directory. -/
def toJson (c : Config) : Json :=
  .obj [("codegen", .obj [("flavor", Json.optional (c.flavor.map Flavor.name))]),
    ("ontology", .obj [("prefixes", .obj (c.prefixes.map fun (k, v) => (k, .str v)))]),
    ("rules", .obj [("definition", Json.optional c.rules.definition),
      ("delegation", Json.optional c.rules.delegation),
      ("execution", Json.optional c.rules.execution)])]

/-- Reads a flavor by its full name. -/
def readFlavor (v : Json) : Except RecordError Flavor := do
  match ← asName Toml.isNothing v with
  | "typescript" => .ok .typeScript
  | "javascript" => .ok .javaScript
  | _ => .error .malformed

/-- The sections of a configuration with the fields of each. -/
def sections : List (String × List String) :=
  [("codegen", ["flavor"]), ("ontology", ["prefixes"]),
    ("rules", ["definition", "delegation", "execution"])]

/-- The names of the fields of a section. -/
def fieldNames (name : String) : List String :=
  (Keyed.get? name sections).getD []

/-- The fields of a section. They may also be given as a list, in the order of their names. -/
def readSection (name : String) : Json.Reading (List (String × Json))
  | .arr items => .ok ((fieldNames name).zip items)
  | v => asFields v

/-- Reads a table of texts. -/
def readTexts (v : Json) : Except RecordError (List (String × String)) := do
  let bindings ← (← asFields v).mapM fun (k, v) => return (k, ← asString v)
  return Keyed.ofList bindings

/-- Reads the section on rules. -/
def readRules (v : Json) : Except RecordError RuleFiles := do
  let fields ← readSection "rules" v
  let path := asOption asString
  let definition ← defaulted ["definition"] none path fields
  let delegation ← defaulted ["delegation"] none path fields
  let execution ← defaulted ["execution"] none path fields
  return { definition, delegation, execution }

/-- Reads a configuration. -/
def ofJson (v : Json) : Except RecordError Config := do
  let fields ← asFields v
  let flavor ← defaulted ["codegen"] none
    (fun v => do defaulted ["flavor"] none (asOption readFlavor) (← readSection "codegen" v))
    fields
  let prefixes ← defaulted ["ontology"] []
    (fun v => do defaulted ["prefixes"] [] readTexts (← readSection "ontology" v)) fields
  let rules ← defaulted ["rules"] ⟨none, none, none⟩ readRules fields
  return { flavor, prefixes, rules, base := none }

/-- Reads a value out of a text that has been taken apart. -/
def decode {α : Type} (read : Json.Reading α) : Option Json → Except Failure α
  | none => .error .configuration
  | some v =>
    match read v with
    | .ok a => .ok a
    | .error _ => .error .configuration

/-- A document without what is passed over: the items of a section's list that no field takes. -/
def trimmed : Toml.Value → Toml.Value
  | .table entries => .table (entries.map fun (name, v) =>
    match Keyed.get? name sections with
    | some fields => (name, v.front fields.length)
    | none => (name, v))
  | v => v

/-- **Reads a configuration text.** -/
def parse (text : String) : Except Failure Config :=
  decode ofJson ((Toml.parse? text).bind fun v => (trimmed v).toJson?)

/-! ## Files -/

variable {m : Type → Type} [Monad m] [Host m]

/-- The text of a file that a configuration depends on. -/
def readFile (path : String) : ExceptT Failure m String := do
  match ← (Host.readText path : m (Except FileFault String)) with
  | .ok text => return text
  | .error fault => throw (.file path fault.text)

/-- **Loads a configuration** from a file. -/
def load (path : String) : ExceptT Failure m Config := do
  let text ← readFile path
  let c ← (parse text : Except Failure Config)
  return { c with base := Path.parent? path }

/-- Whether a file holds TOML, by the extension of its name in any case; others hold JSON. -/
def isToml (path : String) : Bool :=
  match Path.extension? path with
  | some e => e.toList.map Char.toLower == "toml".toList
  | none => false

/-- Reads the text of a rule file. The format decides what counts as nothing in it. -/
def decodeRules {α : Type} (reader : (Json → Bool) → RecordReader α) (path text : String) :
    Except Failure α :=
  if isToml path then
    decode (reader Toml.isNothing).read ((Toml.parse? text).bind Toml.Value.toJson?)
  else
    let reader := reader Json.isNull
    decode reader.read (Json.parseRecord? reader.takes text)

/-- Loads the rules in a file. -/
def loadRules {α : Type} (reader : (Json → Bool) → RecordReader α) (path : String) :
    ExceptT Failure m α := do
  let text ← readFile path
  decodeRules reader path text

/-- Loads rules for definitions. -/
def loadDefinitionRules (path : String) : ExceptT Failure m DefinitionRules :=
  loadRules (fun _ => DefinitionRules.reader) path

/-- Loads rules for a kind of document. The kind that the file states does not matter. -/
def loadDocumentRules (kind : DocumentKind) (path : String) : ExceptT Failure m DocumentRules :=
  return { ← loadRules DocumentRules.reader path with kind }

/-- The path of a rule file that the configuration names. -/
def resolve (c : Config) (path : String) : String :=
  match c.base with
  | some base => Path.join base path
  | none => path

/-- **The rules for definitions**: those of the given file, else of the configured one, else the
usual ones. -/
def definitionRules (c : Config) (file : Option String) : ExceptT Failure m DefinitionRules :=
  match file, c.rules.definition with
  | some path, _ => loadDefinitionRules path
  | none, some path => loadDefinitionRules (c.resolve path)
  | none, none => return .usual

/-- **The rules for a kind of document**, found in the same way. -/
def documentRules (c : Config) (kind : DocumentKind) (file : Option String) :
    ExceptT Failure m DocumentRules :=
  match file, c.rules.document kind with
  | some path, _ => loadDocumentRules kind path
  | none, some path => loadDocumentRules kind (c.resolve path)
  | none, none => return .usual kind

end Config

end IntentContract
