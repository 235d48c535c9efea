import IntentContract.Generated.Client
import IntentContract.Text.Search

/-!
# Handler modules

A handler module exports a function that registers the methods of a handlers object under their
intents. The intents come from the registry that the client module exports; the module states none
itself. A handler gets the payload's fields in the order of the operation's parameters, and the
message last.
-/

namespace IntentContract

namespace Generated

/-- The text of a result that may come at once or be promised. -/
def syncOrAsync (awaited : String) : String :=
  let once :=
    if Text.occursIn TypeDescriptor.barText.toList awaited.toList then "(" ++ awaited ++ ")"
    else awaited
  once ++ " | Promise<" ++ awaited ++ ">"

/-- The import of the registry. -/
def registryImport (c : Contract) (flavor : Flavor) : Code :=
  .line ("import \x7b " ++ c.registryName ++ " \x7d from " ++ Json.literal (c.clientImport flavor)
    ++ ";")

/-- **The types that the handlers import** from the client module. -/
def importedTypes (c : Contract) : List String :=
  "IntentMessage" :: c.referencedTypes ++ (if c.referencesSelf then [c.name] else [])

/-- The lines that call a handler with the payload's fields. -/
def handlerCall (field : Parameter → String) (op : ContractOperation) : List Code :=
  [.line "const payload = message.payload ?? \x7b\x7d;",
    .line ("return handlers." ++ op.name ++ "("
      ++ Text.join ", " (op.parameters.map field ++ ["message"]) ++ ");")]

/-- The registration of an operation's handler. -/
def registration (c : Contract) (message : String) (field : Parameter → String)
    (op : ContractOperation) : Code :=
  .block ("runtime.registerIntent(" ++ c.registryName ++ "." ++ op.name ++ ".intent, (" ++ message
      ++ ") => \x7b")
    (handlerCall field op)
    "\x7d);"

/-- A field of the payload. -/
def payloadField (p : Parameter) : String :=
  "payload[" ++ Json.literal p.name ++ "]"

/-! ## With type declarations -/

/-- A method of the handlers' type. -/
def handlerSignature (op : ContractOperation) : String :=
  op.name ++ "("
    ++ Text.join ", " (op.parameters.map typedParameter ++ ["message?: IntentMessage"])
    ++ "): " ++ syncOrAsync op.awaitedText ++ ";"

/-- The import of the types. -/
def typeImport (c : Contract) : Code :=
  .line ("import type \x7b " ++ Text.join ", " (importedTypes c) ++ " \x7d from "
    ++ Json.literal (c.clientImport .typeScript) ++ ";")

/-- The type of what registers handlers. -/
def runtimeType : Code :=
  .block "export interface IntentRuntime \x7b"
    [.line ("registerIntent(intent: string, handler: (message: IntentMessage) => unknown)"
      ++ ": void;")]
    "\x7d"

/-- The type of the handlers object. -/
def handlersType (c : Contract) : Code :=
  .block ("export interface " ++ c.handlersName ++ " \x7b")
    (c.operations.map fun op => .line (handlerSignature op))
    "\x7d"

/-- The function that registers typed handlers. -/
def typedRegistrar (c : Contract) : Code :=
  .block ("export function " ++ c.registrarName ++ "(runtime: IntentRuntime, handlers: "
      ++ c.handlersName ++ "): void \x7b")
    (c.operations.map (registration c "message: IntentMessage"
      fun p => payloadField p ++ " as " ++ p.type.text))
    "\x7d"

/-- The handler module with type declarations. -/
def typedHandlers (c : Contract) : List Code :=
  header c .handlers
    ++ [registryImport c .typeScript, typeImport c, .blank, runtimeType, .blank, handlersType c,
      .blank]
    ++ [typedRegistrar c]

/-! ## With types in comments -/

/-- The type of a handler, as a comment gives it. -/
def handlerType (op : ContractOperation) : String :=
  "function(" ++ Text.join ", " (op.parameters.map (·.type.text) ++ ["IntentMessage="]) ++ "): ("
    ++ syncOrAsync op.awaitedText ++ ")"

/-- The import of a type, in a comment. -/
def commentImport (c : Contract) (name : String) : Code :=
  .line ("/** @typedef \x7bimport(" ++ Json.literal (c.clientImport .javaScript) ++ ")." ++ name
    ++ "\x7d " ++ name ++ " */")

/-- The type of the handlers object, in a comment. -/
def handlersComment (c : Contract) : List Code :=
  docComment (("@typedef \x7bObject\x7d " ++ c.handlersName)
    :: c.operations.map fun op => "@property \x7b" ++ handlerType op ++ "\x7d " ++ op.name)

/-- The types of what the registering function takes, in a comment. -/
def registrarComment (c : Contract) : List Code :=
  docComment
    ["@param \x7b\x7b registerIntent: function(string, function(IntentMessage): *): void "
      ++ "\x7d\x7d runtime",
      "@param \x7b" ++ c.handlersName ++ "\x7d handlers"]

/-- The function that registers handlers. -/
def commentedRegistrar (c : Contract) : Code :=
  .block ("export function " ++ c.registrarName ++ "(runtime, handlers) \x7b")
    (c.operations.map (registration c "message" payloadField))
    "\x7d"

/-- The handler module with types in comments. -/
def commentedHandlers (c : Contract) : List Code :=
  header c .handlers
    ++ [registryImport c .javaScript, .blank]
    ++ (importedTypes c).map (commentImport c)
    ++ [.blank]
    ++ handlersComment c
    ++ [.blank]
    ++ registrarComment c
    ++ [commentedRegistrar c]

/-- **The handler module** of a contract. -/
def handlersCode : Flavor → Contract → List Code
  | .typeScript => typedHandlers
  | .javaScript => commentedHandlers

/-! ## Both modules -/

/-- A generated file. -/
structure SourceFile where
  name : String
  text : String

/-- The two modules of a contract in one flavor. -/
structure Modules where
  flavor : Flavor
  client : SourceFile
  handlers : SourceFile
  /-- The registry that one module holds and the other imports. -/
  intents : List IntentEntry

end Generated

/-- **Generates the modules of a contract.** -/
def Contract.generate (c : Contract) (flavor : Flavor) : Generated.Modules where
  flavor := flavor
  client := ⟨c.fileName flavor .client, Code.render (Generated.clientCode flavor c)⟩
  handlers := ⟨c.fileName flavor .handlers, Code.render (Generated.handlersCode flavor c)⟩
  intents := c.intents

end IntentContract
