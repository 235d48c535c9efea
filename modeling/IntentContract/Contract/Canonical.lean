import IntentContract.Contract.Basic
import IntentContract.Hash.Sha256
import IntentContract.Json.Text

/-!
# The canonical form of a contract

A contract is written as one JSON record with its fields in a fixed order and absent values as
`null`. The digest of that text names the contract in every generated file.
-/

namespace IntentContract

/-- The JSON record of a parameter. -/
def Parameter.toJson (p : Parameter) : Json :=
  .obj [("name", .str p.name), ("type", .str p.type.text)]

/-- The JSON record of an operation. -/
def ContractOperation.toJson (op : ContractOperation) : Json :=
  .obj [("name", .str op.name), ("intent", .str op.intent), ("proof", Json.optional op.proof),
    ("parameters", .arr (op.parameters.map Parameter.toJson)), ("return_type", .str op.returnText)]

namespace Contract

/-- The JSON record of a contract. -/
def toJson (c : Contract) : Json :=
  .obj [("name", .str c.name), ("context", Json.optional c.context),
    ("semantic", Json.optional c.semantic),
    ("operations", .arr (c.operations.map ContractOperation.toJson))]

/-- **The canonical text** of a contract. -/
def canonical (c : Contract) : String :=
  c.toJson.compact

/-- **The hash of a contract**: the digest of its canonical text. -/
def hash (c : Contract) : String :=
  Sha256.hexDigest c.canonical

end Contract

end IntentContract
