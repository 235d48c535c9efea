import IntentContract.Conformance.DefinitionRules
import IntentContract.Proofs.Definition.Wire
import IntentContract.Proofs.Generated.Traceability

/-!
# Nullability leaves no trace

A definition may mark a type as nullable, at any depth and as often as it likes. Nothing that the
library derives from a definition shows such a mark. There are four ways of looking at a type –
its name, its text, the text of what a caller gets in the end, and the names at its leaves – and
each looks through the marks, also where they stand around a promise or inside a union.

The four are put together as a property of a change of types: the change is **unseen** if it
keeps what they show (`TypeDescriptor.Unseen`). Any unseen change, made throughout a document,
keeps what a check finds in the document, and passes through the building of the contract to a
contract with the same canonical text and the same modules. Taking off the marks is an unseen
change.
-/

namespace IntentContract

/-! ## Types without marks -/

namespace TypeDescriptor

mutual

/-- **A type without its marks of nullability**: whatever is marked is replaced by what the mark
is on. -/
def unmarked : TypeDescriptor → TypeDescriptor
  | .primitive name => .primitive name
  | .union members => .union (allUnmarked members)
  | .generic kind args => .generic kind (allUnmarked args)
  | .nullable inner => inner.unmarked
  | .unknown => .unknown

/-- Types without their marks of nullability. -/
def allUnmarked : List TypeDescriptor → List TypeDescriptor
  | [] => []
  | d :: rest => d.unmarked :: allUnmarked rest

end

mutual

/-- A type in which nothing is marked as nullable. -/
def Bare : TypeDescriptor → Prop
  | .primitive _ => True
  | .union members => AllBare members
  | .generic _ args => AllBare args
  | .nullable _ => False
  | .unknown => True

/-- Types in which nothing is marked as nullable. -/
def AllBare : List TypeDescriptor → Prop
  | [] => True
  | d :: rest => d.Bare ∧ AllBare rest

end

mutual

/-- No mark is left. -/
theorem bare_unmarked (d : TypeDescriptor) : d.unmarked.Bare := by
  cases d with
  | primitive name => trivial
  | union members => exact allBare_allUnmarked members
  | generic kind args => exact allBare_allUnmarked args
  | nullable inner => exact bare_unmarked inner
  | unknown => trivial

theorem allBare_allUnmarked (ds : List TypeDescriptor) : AllBare (allUnmarked ds) := by
  cases ds with
  | nil => trivial
  | cons d rest => exact ⟨bare_unmarked d, allBare_allUnmarked rest⟩

end

/-! ## What a type shows -/

/-- **A change of types that nothing shows.** -/
structure Unseen (f : TypeDescriptor → TypeDescriptor) : Prop where
  name? : ∀ d, (f d).name? = d.name?
  text : ∀ d, (f d).text = d.text
  awaitedText : ∀ d, (f d).awaitedText = d.awaitedText
  leaves : ∀ d, (f d).leaves = d.leaves

theorem isEmpty_allUnmarked (ds : List TypeDescriptor) :
    (allUnmarked ds).isEmpty = ds.isEmpty := by
  cases ds <;> rfl

mutual

theorem text_unmarked (d : TypeDescriptor) : d.unmarked.text = d.text := by
  cases d with
  | primitive name => rfl
  | union members => rw [unmarked, text, text, texts_allUnmarked]
  | generic kind args => rw [unmarked, text, text, texts_allUnmarked, isEmpty_allUnmarked]
  | nullable inner => rw [unmarked, text, text_unmarked inner]
  | unknown => rfl

theorem texts_allUnmarked (ds : List TypeDescriptor) : texts (allUnmarked ds) = texts ds := by
  cases ds with
  | nil => rfl
  | cons d rest => rw [allUnmarked, texts, texts, text_unmarked d, texts_allUnmarked rest]

end

mutual

theorem leaves_unmarked (d : TypeDescriptor) : d.unmarked.leaves = d.leaves := by
  cases d with
  | primitive name => rfl
  | union members => rw [unmarked, leaves, leaves, leavesOf_allUnmarked]
  | generic kind args => rw [unmarked, leaves, leaves, leavesOf_allUnmarked]
  | nullable inner => rw [unmarked, leaves, leaves_unmarked inner]
  | unknown => rfl

theorem leavesOf_allUnmarked (ds : List TypeDescriptor) :
    leavesOf (allUnmarked ds) = leavesOf ds := by
  cases ds with
  | nil => rfl
  | cons d rest =>
    rw [allUnmarked, leavesOf, leavesOf, leaves_unmarked d, leavesOf_allUnmarked rest]

end

/-- A promise is found behind any number of marks. -/
theorem awaitedText_unmarked (d : TypeDescriptor) : d.unmarked.awaitedText = d.awaitedText := by
  cases d with
  | generic kind args =>
    simp only [unmarked, awaitedText, isEmpty_allUnmarked, texts_allUnmarked, text]
  | nullable inner => rw [unmarked, awaitedText, awaitedText_unmarked inner]
  | primitive name => rfl
  | union members => exact text_unmarked (.union members)
  | unknown => rfl

theorem name?_unmarked (d : TypeDescriptor) : d.unmarked.name? = d.name? := by
  cases d with
  | nullable inner => rw [unmarked, name?, name?_unmarked inner]
  | primitive | union | generic | unknown => rfl

/-- **Marks of nullability are not seen.** -/
theorem unseen_unmarked : Unseen unmarked :=
  ⟨name?_unmarked, text_unmarked, awaitedText_unmarked, leaves_unmarked⟩

end TypeDescriptor

/-! ## Types in their places -/

section Places

variable (f : TypeDescriptor → TypeDescriptor)

/-- An operation with a change made to each of its types. -/
def Operation.mapTypes (op : Operation) : Operation :=
  { op with
    returns := op.returns.map f
    arguments := op.arguments.map fun a => { a with type := f a.type } }

/-- A member with a change made to each of its types. -/
def Member.mapTypes : Member → Member
  | .operation op => .operation (op.mapTypes f)
  | .property p => .property { p with type := p.type.map f }
  | .other => .other

/-- An interface with a change made to each of its types. -/
def Interface.mapTypes (i : Interface) : Interface :=
  { i with members := i.members.map (Member.mapTypes f) }

/-- **A definition with a change made to each of its types.** -/
def Definition.mapTypes : Definition → Definition
  | .interface i => .interface (i.mapTypes f)
  | .dictionary d => .dictionary
    { d with fields := d.fields.map fun field => { field with type := f field.type } }
  | .enumeration e => .enumeration e
  | .typedef t => .typedef { t with type := f t.type }
  | .other => .other

/-- An operation of a contract with a change made to each of its types. -/
def ContractOperation.mapTypes (op : ContractOperation) : ContractOperation :=
  { op with
    parameters := op.parameters.map fun p => { p with type := f p.type }
    returns := op.returns.map f }

/-- A contract with a change made to each of its types. -/
def Contract.mapTypes (c : Contract) : Contract :=
  { c with operations := c.operations.map (ContractOperation.mapTypes f) }

end Places

variable {f : TypeDescriptor → TypeDescriptor}

theorem Member.types_mapTypes (m : Member) : (m.mapTypes f).types = m.types.map f := by
  cases m with
  | operation op => simp [mapTypes, types, Operation.mapTypes, Option.toList_map]
  | property p => simp [mapTypes, types, Option.toList_map]
  | other => rfl

/-- The change reaches every type of a definition. -/
theorem Definition.types_mapTypes (d : Definition) : (d.mapTypes f).types = d.types.map f := by
  cases d with
  | interface i =>
    simp [mapTypes, types, Interface.mapTypes, List.flatMap_map, List.map_flatMap,
      Member.types_mapTypes]
  | dictionary d => simp [mapTypes, types]
  | enumeration e => rfl
  | typedef t => rfl
  | other => rfl

theorem Interface.operations_mapTypes (i : Interface) :
    (i.mapTypes f).operations = i.operations.map (Operation.mapTypes f) := by
  have hmember : ∀ m : Member,
      (m.mapTypes f).operation? = m.operation?.map (Operation.mapTypes f) := by
    intro m
    cases m <;> rfl
  simp [operations, mapTypes, List.filterMap_map, hmember, List.map_filterMap]

theorem Definition.interfaces_mapTypes (ds : List Definition) :
    interfaces (ds.map (mapTypes f)) = (interfaces ds).map (Interface.mapTypes f) := by
  have hinterface : ∀ d : Definition,
      (d.mapTypes f).interface? = d.interface?.map (Interface.mapTypes f) := by
    intro d
    cases d <;> rfl
  simp [interfaces, List.filterMap_map, hinterface, List.map_filterMap]

/-! ## Building the contract -/

namespace Contract

theorem insertInto_mapTypes (op : ContractOperation) (ops : List ContractOperation) :
    insertInto (op.mapTypes f) (ops.map (ContractOperation.mapTypes f))
      = (insertInto op ops).map (ContractOperation.mapTypes f) := by
  induction ops with
  | nil => rfl
  | cons o ops ih =>
    rw [List.map_cons, insertInto, insertInto, ih, apply_ite (List.map _)]
    rfl

/-- One more declaration, before the change or after it. -/
theorem insert_mapTypes (c : Contract) (op : Operation) :
    (c.mapTypes f).insert (.ofDeclaration (op.mapTypes f))
      = (c.insert (.ofDeclaration op)).mapTypes f := by
  have hdeclaration : ContractOperation.ofDeclaration (op.mapTypes f)
      = (ContractOperation.ofDeclaration op).mapTypes f := by
    simp [ContractOperation.ofDeclaration, ContractOperation.mapTypes, Operation.mapTypes]
  rw [hdeclaration, insert, mapTypes, insertInto_mapTypes]
  rfl

/-- Any number of declarations. -/
theorem foldl_insert_mapTypes (ops : List Operation) (c : Contract) :
    (ops.map (Operation.mapTypes f)).foldl (fun c op => c.insert (.ofDeclaration op)) (c.mapTypes f)
      = (ops.foldl (fun c op => c.insert (.ofDeclaration op)) c).mapTypes f := by
  induction ops generalizing c with
  | nil => rfl
  | cons op ops ih => rw [List.map_cons, List.foldl_cons, List.foldl_cons, insert_mapTypes, ih]

theorem ofInterface_mapTypes (i : Interface) :
    ofInterface (i.mapTypes f) = (ofInterface i).mapTypes f := by
  have hnamed : (i.mapTypes f).operations.filter (fun op => op.name != "")
      = (i.operations.filter fun op => op.name != "").map (Operation.mapTypes f) := by
    rw [Interface.operations_mapTypes, List.filter_map]
    rfl
  rw [ofInterface, hnamed]
  exact foldl_insert_mapTypes _ ⟨i.name, (Extensions.ofAttributes i.attributes).context,
    (Extensions.ofAttributes i.attributes).semantic, []⟩

/-- **A change of types passes through the building of a contract.** -/
theorem build_mapTypes (ds : List Definition) :
    build (ds.map (Definition.mapTypes f)) = (build ds).map (mapTypes f) := by
  rw [build, build, Definition.interfaces_mapTypes]
  cases Definition.interfaces ds with
  | nil => rfl
  | cons i is => exact congrArg Except.ok (ofInterface_mapTypes i)

end Contract

/-! ## Unseen changes -/

section Unseen

open TypeDescriptor (Unseen)

namespace ContractOperation

theorem customLeaves_mapTypes (hf : Unseen f) (op : ContractOperation) :
    (op.mapTypes f).customLeaves = op.customLeaves := by
  have htype : ∀ d, (f d).customLeaves = d.customLeaves := fun d => by
    rw [TypeDescriptor.customLeaves, TypeDescriptor.customLeaves, hf.leaves]
  simp [customLeaves, mapTypes, List.flatMap_map, Function.comp_def, htype]

/-- An operation shows the same after an unseen change. -/
theorem sameSurface_mapTypes (hf : Unseen f) (op : ContractOperation) :
    op.SameSurface (op.mapTypes f) where
  name := rfl
  intent := rfl
  proof := rfl
  parameters := by
    rw [mapTypes, List.forall₂_map_right_iff]
    exact List.forall₂_same.mpr fun p _ => ⟨rfl, (hf.text p.type).symm⟩
  returnText := by
    rw [returnText, returnText, mapTypes]
    cases op.returns with
    | none => rfl
    | some d => exact (hf.text d).symm
  awaitedText := by
    rw [ContractOperation.awaitedText, ContractOperation.awaitedText, mapTypes]
    cases op.returns with
    | none => rfl
    | some d => exact (hf.awaitedText d).symm
  customLeaves n _ := by rw [customLeaves_mapTypes hf]

end ContractOperation

namespace Contract

variable (hf : Unseen f) (c : Contract)

include hf

theorem forall₂_sameSurface_mapTypes :
    List.Forall₂ ContractOperation.SameSurface c.operations (c.mapTypes f).operations := by
  rw [mapTypes, List.forall₂_map_right_iff]
  exact List.forall₂_same.mpr fun op _ => op.sameSurface_mapTypes hf

/-- **An unseen change keeps the canonical text.** -/
theorem canonical_mapTypes : (c.mapTypes f).canonical = c.canonical := by
  have hagrees : c.Agrees (c.mapTypes f) :=
    ⟨rfl, rfl, rfl, (forall₂_sameSurface_mapTypes hf c).imp fun _ _ h => h.toAgrees⟩
  rw [canonical_eq_text_record, canonical_eq_text_record, (record_eq_iff _ _).mpr hagrees]

/-- **An unseen change keeps the modules.** -/
theorem generate_mapTypes (flavor : Flavor) :
    (c.mapTypes f).generate flavor = c.generate flavor := by
  have hpieces : Generated.SamePieces c (c.mapTypes f) :=
    ⟨rfl, congrArg Sha256.hexDigest (canonical_mapTypes hf c).symm,
      forall₂_sameSurface_mapTypes hf c⟩
  have htypes : c.customTypes = (c.mapTypes f).customTypes := by
    simp [customTypes, mapTypes, List.flatMap_map, ContractOperation.customLeaves_mapTypes hf]
  exact (hpieces.generate_eq htypes flavor).symm

end Contract

namespace DefinitionRules

variable (hf : Unseen f) (rules : DefinitionRules)

include hf

theorem takesDelegation_mapTypes (op : Operation) :
    rules.takesDelegation (op.mapTypes f) = rules.takesDelegation op := by
  simp [takesDelegation, Operation.mapTypes, List.any_map, Function.comp_def, hf.name?]

theorem checkOperations_mapTypes (interface : String) (ops : List Operation)
    (seen : List String) :
    rules.checkOperations interface seen (ops.map (Operation.mapTypes f))
      = rules.checkOperations interface seen ops := by
  induction ops generalizing seen with
  | nil => rfl
  | cons op ops ih =>
    have hdelegation : ∀ location, rules.checkDelegation (op.mapTypes f) location
        = rules.checkDelegation op location := fun location => by
      rw [checkDelegation, checkDelegation, takesDelegation_mapTypes hf]
      rfl
    rw [List.map_cons, checkOperations, checkOperations, ih, hdelegation]
    rfl

/-- **An unseen change keeps what a check finds.** -/
theorem check_mapTypes (ds : List Definition) :
    rules.check (ds.map (Definition.mapTypes f)) = rules.check ds := by
  have hinterface : ∀ i : Interface, rules.checkInterface (i.mapTypes f) = rules.checkInterface i :=
    fun i => by
      rw [checkInterface, Interface.operations_mapTypes, checkOperations_mapTypes hf]
      rfl
  rw [check, check, Definition.interfaces_mapTypes]
  cases Definition.interfaces ds with
  | nil => rfl
  | cons i is => simp [List.flatMap_map, hinterface]

end DefinitionRules

end Unseen

/-- **Nullability leaves no trace.** Take off every mark of nullability in a document, at any
depth of any of its types, and change nothing else. Then every check finds what it found before.
The contract cannot be built for the same reason as before, or it has the same canonical text, the
same hash, and in each flavor the same modules. -/
theorem nullability_leaves_no_trace (ds : List Definition) :
    let bare := ds.map (Definition.mapTypes TypeDescriptor.unmarked)
    (∀ d ∈ bare, ∀ t ∈ d.types, t.Bare)
    ∧ (∀ rules : DefinitionRules, rules.check bare = rules.check ds)
    ∧ ((∃ e, Contract.build ds = .error e ∧ Contract.build bare = .error e)
      ∨ ∃ c d, Contract.build ds = .ok c ∧ Contract.build bare = .ok d
        ∧ d.canonical = c.canonical ∧ d.hash = c.hash
        ∧ ∀ flavor, d.generate flavor = c.generate flavor) := by
  intro bare
  have hunseen := TypeDescriptor.unseen_unmarked
  refine ⟨?_, fun rules => rules.check_mapTypes hunseen ds, ?_⟩
  · rw [List.forall_mem_map]
    intro d _
    rw [Definition.types_mapTypes, List.forall_mem_map]
    exact fun t _ => t.bare_unmarked
  · have hbuild : Contract.build bare = (Contract.build ds).map _ := Contract.build_mapTypes ds
    rw [hbuild]
    cases Contract.build ds with
    | error e => exact .inl ⟨e, rfl, rfl⟩
    | ok c =>
      have hcanonical := c.canonical_mapTypes hunseen
      exact .inr ⟨c, _, rfl, rfl, hcanonical, congrArg Sha256.hexDigest hcanonical,
        c.generate_mapTypes hunseen⟩

end IntentContract
