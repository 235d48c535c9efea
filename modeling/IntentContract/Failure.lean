import IntentContract.Definition.Grammar

/-!
# Failures

What can keep the library from an answer. Breaches of rules are not among them: they are findings
of a report.
-/

namespace IntentContract

/-- Why a text could not be taken as a document to check. -/
inductive DocumentFault where
  /-- The text is no JSON. -/
  | notJson
  /-- The value is no object but something else. -/
  | notObject (found : String)
  deriving DecidableEq

/-- **The causes of failure.** -/
inductive Failure where
  | parse (e : ParseError)
  | noInterface
  | unhandledIntent (agent intent : String)
  | unknownMethod (method : String)
  | handlerFailed (intent reason : String)
  | malformedDocument (fault : DocumentFault)
  | configuration
  | file (path reason : String)

/-- **The message of a failure.** -/
def Failure.message : Failure → String
  | .parse e => "Parse error: " ++ e.message
  | .noInterface => "No interface definition found"
  | .unhandledIntent agent intent =>
    "Unhandled intent '" ++ intent ++ "' at agent '" ++ agent ++ "'"
  | .unknownMethod method => "Unknown method '" ++ method ++ "'"
  | .handlerFailed intent reason =>
    "Handler for intent '" ++ intent ++ "' failed: " ++ reason
  | .malformedDocument .notJson => "Malformed document"
  | .malformedDocument (.notObject found) =>
    "Malformed document: expected a JSON object, found " ++ found
  | .configuration => "Configuration error"
  | .file path reason => "I/O error: " ++ path ++ ": " ++ reason

end IntentContract
