import IntentContract.Contract.Basic
import IntentContract.Json.Text
import IntentContract.LinkedData.PrefixTable

/-!
# Contracts as linked data

A contract is described in two views that name the same resources: a graph in JSON, whose
identifiers are expanded, and a list of statements in text, which keeps compact identifiers and
declares their prefixes. The contract is a class, and each operation is an intent, identified by
the intent it declares or else by its place in the contract.
-/

namespace IntentContract.LinkedData

/-- The identifier of a contract's class. -/
def classId (c : Contract) : String :=
  "agent:" ++ c.name

/-- The identifier of an operation. -/
def operationId (c : Contract) (op : ContractOperation) : String :=
  if op.intent = "" then c.name ++ "." ++ op.name else op.intent

/-! ## The graph -/

/-- The terms of the vocabulary that the graph uses. -/
def vocabularyTerms : List (String × Json) :=
  [("label", .str "rdfs:label"), ("Intent", .str "agent:Intent"), ("intent", .str "agent:intent"),
    ("proof", .str "agent:proof"),
    ("semantic", .obj [("@id", .str "agent:semantic"), ("@type", .str "@id")])]

/-- The terms of the graph's context: the prefixes, and over them the vocabulary. -/
def contextTerms (t : PrefixTable) : Json :=
  .obj (Keyed.insertAll vocabularyTerms
    (Keyed.ofList (t.entries.map fun (name, iri) => (name, .str iri))))

/-- A field with a text, if there is one. -/
def optionalField (key : String) (value : Option String) : List (String × Json) :=
  match value with
  | none => []
  | some s => [(key, .str s)]

/-- The node of a contract's class. -/
def classNode (t : PrefixTable) (c : Contract) : Json :=
  .obj ([("@id", .str (t.expand (classId c))), ("@type", .str "owl:Class"), ("label", .str c.name)]
    ++ optionalField "semantic" (c.semantic.map t.expand))

/-- The node of an operation. -/
def operationNode (t : PrefixTable) (c : Contract) (op : ContractOperation) : Json :=
  .obj ([("@id", .str (t.expand (operationId c op))), ("@type", .str "Intent")]
    ++ optionalField "intent" (if op.intent = "" then none else some op.intent)
    ++ [("label", .str op.name)]
    ++ optionalField "proof" op.proof)

/-- **The graph of a contract** under a prefix table, completed by the core prefixes. -/
def graph (prefixes : PrefixTable) (c : Contract) : Json :=
  let t := prefixes.completed
  let context := (c.context.map Json.str).toList ++ [contextTerms t]
  .obj [("@context", .arr context),
    ("@graph", .arr (classNode t c :: c.operations.map (operationNode t c)))]

/-! ## The statements -/

/-- Splits a text at the first `://`. -/
def splitScheme? : List Char → Option (List Char × List Char)
  | [] => none
  | ':' :: '/' :: '/' :: rest => some ([], rest)
  | c :: rest => (splitScheme? rest).map fun (front, back) => (c :: front, back)

/-- A character of a scheme's name. -/
def isSchemeChar (c : Char) : Bool :=
  c.isAlphanum || c = '+' || c = '-' || c = '.'

/-- Whether a text starts with a scheme and `://`. -/
def isAbsolute (value : String) : Bool :=
  match splitScheme? value.toList with
  | some (scheme, _) => !scheme.isEmpty && scheme.all isSchemeChar
  | none => false

/-- **The term for an identifier**: as it is if it is compact and its prefix bound, else in angle
brackets. -/
def term (t : PrefixTable) (value : String) : String :=
  if !isAbsolute value && (t.split? value).isSome then value else "<" ++ value ++ ">"

/-- A statement: its words, with blanks between them. -/
abbrev Statement := List String

/-- The declarations of the prefixes. -/
def declarations (t : PrefixTable) : List Statement :=
  t.entries.map fun (name, iri) => ["@prefix", name ++ ":", "<" ++ iri ++ ">", "."]

/-- The statement about a contract's class. -/
def classStatement (t : PrefixTable) (c : Contract) : Statement :=
  [term t (classId c), "a", "owl:Class", ";", "rdfs:label", Json.literal c.name, "."]

/-- The statements about an operation: what it is, and the proof it requires, if any. -/
def operationStatements (t : PrefixTable) (c : Contract) (op : ContractOperation) :
    List Statement :=
  let id := term t (operationId c op)
  [id, "a", "agent:Intent", ";", "rdfs:label", Json.literal op.name, ";", "agent:operationOf",
      term t (classId c), "."]
    :: match op.proof with
      | none => []
      | some proof => [[id, "agent:requiresProof", term t proof, "."]]

/-- The statements of a contract's description, behind the declarations. -/
def statements (t : PrefixTable) (c : Contract) : List Statement :=
  classStatement t c :: c.operations.flatMap (operationStatements t c)

/-- The text of statements, one on each line. -/
def statementsText (ss : List Statement) : String :=
  String.join (ss.map fun s => Text.join " " s ++ "\n")

/-- **The statements of a contract as text**, under a prefix table completed by the core
prefixes. -/
def turtle (prefixes : PrefixTable) (c : Contract) : String :=
  let t := prefixes.completed
  statementsText (declarations t) ++ "\n" ++ statementsText (statements t c)

end IntentContract.LinkedData
