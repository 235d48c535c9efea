import IntentContract.Contract.Canonical
import IntentContract.Proofs.Json.Compact
import Mathlib.Data.List.Forall2

/-!
# What the canonical text tells

The canonical text of a contract is the compact text of a record. That record has texts in all its
places, also for types, and no numbers, so its text can be read in one way, whatever characters
there are in it: **the text determines the record** (`Contract.Record.text_inj`). A proof that is
absent is told from the text `null` by its quotes, and a text that looks like the end of a field
has its own quotes escaped.

Two contracts have one canonical text, then, just if they **agree** on everything that the record
has: their names and addresses, and one by one their operations, where a type counts by its text.
-/

namespace IntentContract

/-! ## Records -/

/-- A parameter as it is written, with the text of its type. -/
structure Parameter.Record where
  name : String
  type : String
  deriving DecidableEq

/-- An operation as it is written. -/
structure ContractOperation.Record where
  name : String
  intent : String
  proof : Option String
  parameters : List Parameter.Record
  returnText : String
  deriving DecidableEq

/-- **A contract as it is written**: texts, some of which may be absent. -/
structure Contract.Record where
  name : String
  context : Option String
  semantic : Option String
  operations : List ContractOperation.Record
  deriving DecidableEq

/-- The JSON value of a parameter as it is written. -/
def Parameter.Record.toJson (p : Parameter.Record) : Json :=
  .obj [("name", .str p.name), ("type", .str p.type)]

/-- The JSON value of an operation as it is written. -/
def ContractOperation.Record.toJson (op : ContractOperation.Record) : Json :=
  .obj [("name", .str op.name), ("intent", .str op.intent), ("proof", Json.optional op.proof),
    ("parameters", .arr (op.parameters.map Parameter.Record.toJson)),
    ("return_type", .str op.returnText)]

/-- The JSON value of a contract as it is written. -/
def Contract.Record.toJson (c : Contract.Record) : Json :=
  .obj [("name", .str c.name), ("context", Json.optional c.context),
    ("semantic", Json.optional c.semantic),
    ("operations", .arr (c.operations.map ContractOperation.Record.toJson))]

/-- The text of a contract as it is written. -/
def Contract.Record.text (c : Contract.Record) : String :=
  c.toJson.compact

/-- What is written of a parameter. -/
def Parameter.record (p : Parameter) : Parameter.Record :=
  ⟨p.name, p.type.text⟩

/-- What is written of an operation. -/
def ContractOperation.record (op : ContractOperation) : ContractOperation.Record :=
  ⟨op.name, op.intent, op.proof, op.parameters.map Parameter.record, op.returnText⟩

/-- What is written of a contract. -/
def Contract.record (c : Contract) : Contract.Record :=
  ⟨c.name, c.context, c.semantic, c.operations.map ContractOperation.record⟩

theorem ContractOperation.toJson_record (op : ContractOperation) :
    op.record.toJson = op.toJson := by
  rw [record, Record.toJson, List.map_map]
  rfl

/-- **The canonical text is that of the record.** -/
theorem Contract.canonical_eq_text_record (c : Contract) : c.canonical = c.record.text := by
  have hoperations : c.operations.map (ContractOperation.Record.toJson ∘ ContractOperation.record)
      = c.operations.map ContractOperation.toJson :=
    List.map_congr_left fun op _ => op.toJson_record
  rw [record, Record.text, Record.toJson, List.map_map, hoperations]
  rfl

/-! ## The text determines the record -/

theorem Json.Numberless.optional (value : Option String) : (Json.optional value).Numberless := by
  cases value with
  | none => exact .null
  | some s => exact .str s

theorem Json.optional_injective : Function.Injective Json.optional := by
  intro v w h
  cases v <;> cases w <;> cases h <;> rfl

theorem Parameter.Record.numberless_toJson (p : Parameter.Record) : p.toJson.Numberless :=
  .obj (by simp [Json.Numberless.str])

theorem ContractOperation.Record.numberless_toJson (op : ContractOperation.Record) :
    op.toJson.Numberless := by
  have hparameters : (Json.arr (op.parameters.map Parameter.Record.toJson)).Numberless :=
    .arr (List.forall_mem_map.mpr fun p _ => p.numberless_toJson)
  exact .obj (by simp [Json.Numberless.str, Json.Numberless.optional, hparameters])

/-- The record of a contract has no numbers. -/
theorem Contract.Record.numberless_toJson (c : Contract.Record) : c.toJson.Numberless := by
  have hoperations : (Json.arr (c.operations.map ContractOperation.Record.toJson)).Numberless :=
    .arr (List.forall_mem_map.mpr fun op _ => op.numberless_toJson)
  exact .obj (by simp [Json.Numberless.str, Json.Numberless.optional, hoperations])

theorem Parameter.Record.toJson_injective : Function.Injective Parameter.Record.toJson := by
  rintro ⟨name, type⟩ ⟨name', type'⟩ h
  simpa [toJson] using h

theorem ContractOperation.Record.toJson_injective :
    Function.Injective ContractOperation.Record.toJson := by
  rintro ⟨name, intent, proof, parameters, returnText⟩ ⟨name', intent', proof', parameters', _⟩ h
  simpa [toJson, Json.optional_injective.eq_iff,
    Parameter.Record.toJson_injective.list_map.eq_iff] using h

theorem Contract.Record.toJson_injective : Function.Injective Contract.Record.toJson := by
  rintro ⟨name, context, semantic, operations⟩ ⟨name', context', semantic', operations'⟩ h
  simpa [toJson, Json.optional_injective.eq_iff,
    ContractOperation.Record.toJson_injective.list_map.eq_iff] using h

/-- **Records with one text are the same**, whatever the texts in them. -/
theorem Contract.Record.text_inj {r s : Contract.Record} : r.text = s.text ↔ r = s := by
  refine ⟨fun h => toJson_injective ?_, congrArg text⟩
  exact Json.compact_inj r.numberless_toJson s.numberless_toJson h

/-! ## Agreement -/

/-- Parameters with one name and one text of their types. -/
structure Parameter.Agrees (p q : Parameter) : Prop where
  name : p.name = q.name
  type : p.type.text = q.type.text

/-- Operations that no field of their records tells apart. -/
structure ContractOperation.Agrees (o p : ContractOperation) : Prop where
  name : o.name = p.name
  intent : o.intent = p.intent
  proof : o.proof = p.proof
  parameters : List.Forall₂ Parameter.Agrees o.parameters p.parameters
  returnText : o.returnText = p.returnText

/-- **Contracts that agree**: in their names, their addresses and, one by one, their
operations. -/
structure Contract.Agrees (c d : Contract) : Prop where
  name : c.name = d.name
  context : c.context = d.context
  semantic : c.semantic = d.semantic
  operations : List.Forall₂ ContractOperation.Agrees c.operations d.operations

/-- Lists have the same images just if their items have, one by one. -/
theorem map_eq_map_iff_forall₂ {α β : Type} {f g : α → β} {as bs : List α} :
    as.map f = bs.map g ↔ List.Forall₂ (fun a b => f a = g b) as bs := by
  rw [← List.forall₂_eq_eq_eq, List.forall₂_map_left_iff, List.forall₂_map_right_iff]

theorem Parameter.record_eq_iff (p q : Parameter) : p.record = q.record ↔ p.Agrees q := by
  rw [record, record, Record.mk.injEq]
  exact ⟨fun h => ⟨h.1, h.2⟩, fun h => ⟨h.name, h.type⟩⟩

theorem ContractOperation.record_eq_iff (o p : ContractOperation) :
    o.record = p.record ↔ o.Agrees p := by
  rw [record, record, Record.mk.injEq, map_eq_map_iff_forall₂]
  simp only [Parameter.record_eq_iff]
  exact ⟨fun ⟨hname, hintent, hproof, hparameters, hreturn⟩ =>
      ⟨hname, hintent, hproof, hparameters, hreturn⟩,
    fun h => ⟨h.name, h.intent, h.proof, h.parameters, h.returnText⟩⟩

/-- Contracts have one record just if they agree. -/
theorem Contract.record_eq_iff (c d : Contract) : c.record = d.record ↔ c.Agrees d := by
  rw [record, record, Record.mk.injEq, map_eq_map_iff_forall₂]
  simp only [ContractOperation.record_eq_iff]
  exact ⟨fun ⟨hname, hcontext, hsemantic, hoperations⟩ =>
      ⟨hname, hcontext, hsemantic, hoperations⟩,
    fun h => ⟨h.name, h.context, h.semantic, h.operations⟩⟩

/-- Contracts with one canonical text agree. -/
theorem Contract.agrees_of_canonical_eq {c d : Contract} (h : c.canonical = d.canonical) :
    c.Agrees d := by
  rw [canonical_eq_text_record, canonical_eq_text_record, Record.text_inj] at h
  exact (record_eq_iff c d).mp h

/-- **The canonical text tells contracts apart just as far as they disagree.** It is the text of
the contract's record. Such texts are equal only for equal records, for every record with whatever
texts in its places. And contracts with one canonical text are those that agree on their names,
their addresses and, one by one, on the name, the intent, the proof, the parameters and the
result of each operation. -/
theorem Contract.canonical_eq_iff :
    (∀ c : Contract, c.canonical = c.record.text)
    ∧ (∀ r s : Contract.Record, r.text = s.text ↔ r = s)
    ∧ ∀ c d : Contract, c.canonical = d.canonical ↔ c.Agrees d := by
  refine ⟨canonical_eq_text_record, fun r s => Record.text_inj, fun c d => ?_⟩
  rw [canonical_eq_text_record, canonical_eq_text_record, Record.text_inj, record_eq_iff]

end IntentContract
