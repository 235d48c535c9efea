import IntentContract.Generated.Code
import IntentContract.Generated.Names

/-!
# Client modules

A client module exports the registry of intents and a function that makes a client from a
transport: a method for each operation, which sends the operation's intent and proof, looked up in
the registry, with its arguments as payload. Custom types are declared as records of unknown
content.
-/

namespace IntentContract.Generated

/-- The comment lines that a generated module starts with. -/
def header (c : Contract) (kind : ModuleKind) : List Code :=
  [.line ("// Generated by agentidl from interface " ++ c.name ++ " (" ++ kind.name
      ++ "). Do not edit."),
    .line ("// model sha256:" ++ c.hash),
    .blank]

/-- A text literal, or `null` where there is none. -/
def literalOrNull (value : Option String) : String :=
  (value.map Json.literal).getD "null"

/-- A record of an operation's parameters under their own names. -/
def payloadLiteral (op : ContractOperation) : String :=
  if op.parameters.isEmpty then "\x7b\x7d"
  else "\x7b " ++ Text.join ", " op.parameterNames ++ " \x7d"

/-- The lines that a client method sends. -/
def sentFields (c : Contract) (op : ContractOperation) : List Code :=
  [.line ("intent: " ++ c.registryName ++ "." ++ op.name ++ ".intent,"),
    .line ("proof: " ++ c.registryName ++ "." ++ op.name ++ ".proof,"),
    .line ("payload: " ++ payloadLiteral op ++ ",")]

/-- Lines followed by an empty one, or nothing for no lines. -/
def paragraph (lines : List Code) : List Code :=
  if lines.isEmpty then [] else lines ++ [.blank]

/-! ## With type declarations -/

/-- A parameter with its type. -/
def typedParameter (p : Parameter) : String :=
  p.name ++ ": " ++ p.type.text

/-- The signature of a client method. -/
def clientSignature (op : ContractOperation) : String :=
  op.name ++ "(" ++ Text.join ", " (op.parameters.map typedParameter) ++ "): Promise<"
    ++ op.awaitedText ++ ">"

/-- An entry of the registry. -/
def registryEntry (op : ContractOperation) : String :=
  op.name ++ ": \x7b intent: " ++ Json.literal op.intent ++ ", proof: " ++ literalOrNull op.proof
    ++ " \x7d,"

/-- A method of the typed client. -/
def typedMethod (c : Contract) (op : ContractOperation) : Code :=
  .block (clientSignature op ++ " \x7b")
    [.block "return transport.send(\x7b" (sentFields c op)
      ("\x7d) as Promise<" ++ op.awaitedText ++ ">;")]
    "\x7d,"

/-- The types of messages and of what sends them. -/
def messageTypes : List Code :=
  [.block "export interface IntentMessage \x7b"
      [.line "intent: string;",
        .line "proof?: string | null;",
        .line "payload: Record<string, unknown>;",
        .line "from?: string;",
        .line "to?: string;",
        .line "timestamp?: string;"]
      "\x7d",
    .blank,
    .block "export interface IntentTransport \x7b"
      [.line "send(message: IntentMessage): Promise<unknown>;"]
      "\x7d",
    .blank]

/-- The declaration of a custom type. -/
def typePlaceholder (name : String) : Code :=
  .line ("export type " ++ name ++ " = Record<string, unknown>;")

/-- The registry of intents. -/
def typedRegistry (c : Contract) : Code :=
  .block ("export const " ++ c.registryName ++ " = \x7b")
    (c.operations.map fun op => .line (registryEntry op))
    "\x7d as const;"

/-- The client's type. -/
def clientType (c : Contract) : Code :=
  .block ("export interface " ++ c.clientName ++ " \x7b")
    (c.operations.map fun op => .line (clientSignature op ++ ";"))
    "\x7d"

/-- The contract's own name as a type: that of its client. -/
def selfType (c : Contract) : Code :=
  .line ("export type " ++ c.name ++ " = " ++ c.clientName ++ ";")

/-- The function that makes a typed client. -/
def typedFactory (c : Contract) : Code :=
  .block ("export function " ++ c.factoryName ++ "(transport: IntentTransport): " ++ c.clientName
      ++ " \x7b")
    [.block "return \x7b" (c.operations.map (typedMethod c)) "\x7d;"]
    "\x7d"

/-- The client module with type declarations. -/
def typedClient (c : Contract) : List Code :=
  header c .client ++ messageTypes
    ++ paragraph (c.referencedTypes.map typePlaceholder)
    ++ [typedRegistry c, .blank, clientType c, .blank]
    ++ paragraph (if c.referencesSelf then [selfType c] else [])
    ++ [typedFactory c]

/-! ## With types in comments -/

/-- A comment of several lines. -/
def docComment (lines : List String) : List Code :=
  .line "/**" :: lines.map (fun l => .line (" * " ++ l)) ++ [.line " */"]

/-- An entry of the frozen registry. -/
def frozenEntry (op : ContractOperation) : String :=
  op.name ++ ": Object.freeze(\x7b intent: " ++ Json.literal op.intent ++ ", proof: "
    ++ literalOrNull op.proof ++ " \x7d),"

/-- A method of the client, with the comment in front of it. -/
def commentedMethod (c : Contract) (op : ContractOperation) : List Code :=
  docComment (op.parameters.map (fun p => "@param \x7b" ++ p.type.text ++ "\x7d " ++ p.name)
      ++ ["@returns \x7bPromise<" ++ op.awaitedText ++ ">\x7d"])
    ++ [.block (op.name ++ "(" ++ Text.join ", " op.parameterNames ++ ") \x7b")
        [.block "return transport.send(\x7b" (sentFields c op) "\x7d);"]
        "\x7d,"]

/-- The types of messages and of what sends them, in comments. -/
def messageComments : List Code :=
  docComment
      ["@typedef \x7bObject\x7d IntentMessage",
        "@property \x7bstring\x7d intent",
        "@property \x7bstring|null\x7d [proof]",
        "@property \x7bObject<string, *>\x7d payload",
        "@property \x7bstring\x7d [from]",
        "@property \x7bstring\x7d [to]",
        "@property \x7bstring\x7d [timestamp]"]
    ++ [.blank]
    ++ docComment
      ["@typedef \x7bObject\x7d IntentTransport",
        "@property \x7bfunction(IntentMessage): Promise<*>\x7d send"]
    ++ [.blank]

/-- The declaration of a custom type, in a comment. -/
def commentPlaceholder (name : String) : Code :=
  .line ("/** @typedef \x7bObject<string, *>\x7d " ++ name ++ " */")

/-- The registry of intents, frozen. -/
def frozenRegistry (c : Contract) : Code :=
  .block ("export const " ++ c.registryName ++ " = Object.freeze(\x7b")
    (c.operations.map fun op => .line (frozenEntry op))
    "\x7d);"

/-- The contract's own name as a type, in a comment. -/
def selfComment (c : Contract) : Code :=
  .line ("/** @typedef \x7bReturnType<typeof " ++ c.factoryName ++ ">\x7d " ++ c.name ++ " */")

/-- The function that makes a client, with the comment in front of it. -/
def commentedFactory (c : Contract) : List Code :=
  docComment ["@param \x7bIntentTransport\x7d transport"]
    ++ [.block ("export function " ++ c.factoryName ++ "(transport) \x7b")
        [.block "return \x7b" (c.operations.flatMap (commentedMethod c)) "\x7d;"]
        "\x7d"]

/-- The client module with types in comments. -/
def commentedClient (c : Contract) : List Code :=
  header c .client ++ messageComments
    ++ paragraph (c.referencedTypes.map commentPlaceholder)
    ++ [frozenRegistry c, .blank]
    ++ commentedFactory c
    ++ (if c.referencesSelf then [.blank, selfComment c] else [])

/-- **The client module** of a contract. -/
def clientCode : Flavor → Contract → List Code
  | .typeScript => typedClient
  | .javaScript => commentedClient

end IntentContract.Generated
