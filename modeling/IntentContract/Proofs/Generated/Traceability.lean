import IntentContract.Artifacts
import IntentContract.Proofs.Contract.Surface
import IntentContract.Proofs.Generated.Lines
import IntentContract.Proofs.LinkedData.Recovery
import Mathlib.Data.List.Count

/-!
# What the hash of a contract stands for

Every generated module names the hash of its contract, so that it can be traced to the contract.
This module says how far that goes. Contracts with one canonical text have one hash, and the
same description as linked data. They have the same modules just if they use the same ambiguous
names as custom types: the name `number` in a canonical text may be that of a primitive or of a
custom type, and only the second is declared in the client module.

One direction is a comparison of the modules piece by piece. For the other, the line that
declares a type is counted in both client modules: it stands equally often in the pieces that
the modules have in common, and so it stands in both or in neither of the remaining ones.
-/

namespace IntentContract

/-- Contracts whose operations agree have one registry of intents. -/
theorem Contract.intents_eq_of_agrees {c d : Contract}
    (h : List.Forall₂ ContractOperation.Agrees c.operations d.operations) :
    c.intents = d.intents :=
  map_eq_of_forall₂ h fun _ _ hop => by rw [hop.name, hop.intent, hop.proof]

namespace Generated

/-! ## Texts about an operation -/

section Operation

variable {o p : ContractOperation} {c d : Contract}

theorem parameterNames_eq (h : o.SameSurface p) : o.parameterNames = p.parameterNames :=
  map_eq_of_forall₂ h.parameters fun _ _ hp => hp.name

theorem payloadLiteral_eq (h : o.SameSurface p) : payloadLiteral o = payloadLiteral p := by
  have hempty : o.parameters.isEmpty = p.parameters.isEmpty := by
    rw [Bool.eq_iff_iff, List.isEmpty_iff_length_eq_zero, List.isEmpty_iff_length_eq_zero,
      h.parameters.length_eq]
  rw [payloadLiteral, payloadLiteral, hempty, parameterNames_eq h]

theorem sentFields_eq (hname : c.name = d.name) (h : o.SameSurface p) :
    sentFields c o = sentFields d p := by
  simp only [sentFields, Contract.registryName, hname, h.name, payloadLiteral_eq h]

theorem typedParameters_eq (h : o.SameSurface p) :
    o.parameters.map typedParameter = p.parameters.map typedParameter :=
  map_eq_of_forall₂ h.parameters fun _ _ hp => by
    rw [typedParameter, typedParameter, hp.name, hp.type]

theorem clientSignature_eq (h : o.SameSurface p) : clientSignature o = clientSignature p := by
  rw [clientSignature, clientSignature, h.name, typedParameters_eq h, h.awaitedText]

theorem typedMethod_eq (hname : c.name = d.name) (h : o.SameSurface p) :
    typedMethod c o = typedMethod d p := by
  rw [typedMethod, typedMethod, clientSignature_eq h, sentFields_eq hname h, h.awaitedText]

theorem commentedMethod_eq (hname : c.name = d.name) (h : o.SameSurface p) :
    commentedMethod c o = commentedMethod d p := by
  have hcomments : o.parameters.map (fun q => "@param \x7b" ++ q.type.text ++ "\x7d " ++ q.name)
      = p.parameters.map fun q => "@param \x7b" ++ q.type.text ++ "\x7d " ++ q.name :=
    map_eq_of_forall₂ h.parameters fun _ _ hp => by rw [hp.name, hp.type]
  rw [commentedMethod, commentedMethod, hcomments, h.name, h.awaitedText, parameterNames_eq h,
    sentFields_eq hname h]

theorem registration_eq (hname : c.name = d.name) (h : o.SameSurface p) (message : String)
    {field : Parameter → String} (hfield : ∀ p q : Parameter, p.Agrees q → field p = field q) :
    registration c message field o = registration d message field p := by
  have hfields : o.parameters.map field = p.parameters.map field :=
    map_eq_of_forall₂ h.parameters hfield
  simp only [registration, handlerCall, Contract.registryName, hname, h.name, hfields]

theorem handlerSignature_eq (h : o.SameSurface p) : handlerSignature o = handlerSignature p := by
  rw [handlerSignature, handlerSignature, h.name, typedParameters_eq h, h.awaitedText]

theorem handlerType_eq (h : o.SameSurface p) : handlerType o = handlerType p := by
  have htypes : o.parameters.map (·.type.text) = p.parameters.map (·.type.text) :=
    map_eq_of_forall₂ h.parameters fun _ _ hp => hp.type
  rw [handlerType, handlerType, htypes, h.awaitedText]

end Operation

/-! ## The pieces of the modules -/

/-- **Contracts whose modules differ at most in the custom types.** -/
structure SamePieces (c d : Contract) : Prop where
  name : c.name = d.name
  hash : c.hash = d.hash
  operations : List.Forall₂ ContractOperation.SameSurface c.operations d.operations

/-- Contracts of documents with one canonical text. -/
theorem samePieces_of_canonical_eq {c d : Contract} (hc : c.WellFormed) (hd : d.WellFormed)
    (h : c.canonical = d.canonical) : SamePieces c d where
  name := (Contract.agrees_of_canonical_eq h).name
  hash := congrArg Sha256.hexDigest h
  operations := Contract.sameSurface_of_agrees hc hd (Contract.agrees_of_canonical_eq h)

namespace SamePieces

variable {c d : Contract}

theorem header_eq (h : SamePieces c d) (kind : ModuleKind) : header c kind = header d kind := by
  rw [header, header, h.name, h.hash]

theorem typedRegistry_eq (h : SamePieces c d) : typedRegistry c = typedRegistry d := by
  have hentries : c.operations.map (fun op => Code.line (registryEntry op))
      = d.operations.map fun op => Code.line (registryEntry op) :=
    map_eq_of_forall₂ h.operations fun _ _ hop => by
      rw [registryEntry, registryEntry, hop.name, hop.intent, hop.proof]
  rw [typedRegistry, typedRegistry, hentries, Contract.registryName, Contract.registryName, h.name]

theorem clientType_eq (h : SamePieces c d) : clientType c = clientType d := by
  have hsignatures : c.operations.map (fun op => Code.line (clientSignature op ++ ";"))
      = d.operations.map fun op => Code.line (clientSignature op ++ ";") :=
    map_eq_of_forall₂ h.operations fun _ _ hop => by rw [clientSignature_eq hop]
  rw [clientType, clientType, hsignatures, Contract.clientName, Contract.clientName, h.name]

theorem selfType_eq (h : SamePieces c d) : selfType c = selfType d := by
  rw [selfType, selfType, Contract.clientName, Contract.clientName, h.name]

theorem typedFactory_eq (h : SamePieces c d) : typedFactory c = typedFactory d := by
  have hmethods : c.operations.map (typedMethod c) = d.operations.map (typedMethod d) :=
    map_eq_of_forall₂ h.operations fun _ _ hop => typedMethod_eq h.name hop
  rw [typedFactory, typedFactory, hmethods, Contract.factoryName, Contract.factoryName,
    Contract.clientName, Contract.clientName, h.name]

theorem frozenRegistry_eq (h : SamePieces c d) : frozenRegistry c = frozenRegistry d := by
  have hentries : c.operations.map (fun op => Code.line (frozenEntry op))
      = d.operations.map fun op => Code.line (frozenEntry op) :=
    map_eq_of_forall₂ h.operations fun _ _ hop => by
      rw [frozenEntry, frozenEntry, hop.name, hop.intent, hop.proof]
  rw [frozenRegistry, frozenRegistry, hentries, Contract.registryName, Contract.registryName,
    h.name]

theorem commentedFactory_eq (h : SamePieces c d) : commentedFactory c = commentedFactory d := by
  have hmethods : c.operations.flatMap (commentedMethod c)
      = d.operations.flatMap (commentedMethod d) := by
    rw [List.flatMap_def, List.flatMap_def,
      map_eq_of_forall₂ h.operations fun _ _ hop => commentedMethod_eq h.name hop]
  rw [commentedFactory, commentedFactory, hmethods, Contract.factoryName, Contract.factoryName,
    h.name]

theorem selfComment_eq (h : SamePieces c d) : selfComment c = selfComment d := by
  rw [selfComment, selfComment, Contract.factoryName, Contract.factoryName, h.name]

theorem clientImport_eq (h : SamePieces c d) (flavor : Flavor) :
    c.clientImport flavor = d.clientImport flavor := by
  rw [Contract.clientImport, Contract.clientImport, h.name]

theorem typedRegistrar_eq (h : SamePieces c d) : typedRegistrar c = typedRegistrar d := by
  have hregistrations : c.operations.map (registration c "message: IntentMessage"
        fun p => payloadField p ++ " as " ++ p.type.text)
      = d.operations.map (registration d "message: IntentMessage"
        fun p => payloadField p ++ " as " ++ p.type.text) :=
    map_eq_of_forall₂ h.operations fun _ _ hop => registration_eq h.name hop _ fun _ _ hp => by
      rw [payloadField, payloadField, hp.name, hp.type]
  rw [typedRegistrar, typedRegistrar, hregistrations, Contract.registrarName,
    Contract.registrarName, Contract.handlersName, Contract.handlersName, h.name]

theorem commentedRegistrar_eq (h : SamePieces c d) :
    commentedRegistrar c = commentedRegistrar d := by
  have hregistrations : c.operations.map (registration c "message" payloadField)
      = d.operations.map (registration d "message" payloadField) :=
    map_eq_of_forall₂ h.operations fun _ _ hop => registration_eq h.name hop _ fun _ _ hp => by
      rw [payloadField, payloadField, hp.name]
  rw [commentedRegistrar, commentedRegistrar, hregistrations, Contract.registrarName,
    Contract.registrarName, h.name]

theorem handlersType_eq (h : SamePieces c d) : handlersType c = handlersType d := by
  have hsignatures : c.operations.map (fun op => Code.line (handlerSignature op))
      = d.operations.map fun op => Code.line (handlerSignature op) :=
    map_eq_of_forall₂ h.operations fun _ _ hop => by rw [handlerSignature_eq hop]
  rw [handlersType, handlersType, hsignatures, Contract.handlersName, Contract.handlersName,
    h.name]

theorem handlersComment_eq (h : SamePieces c d) : handlersComment c = handlersComment d := by
  have hproperties : c.operations.map (fun op =>
        "@property \x7b" ++ handlerType op ++ "\x7d " ++ op.name)
      = d.operations.map fun op => "@property \x7b" ++ handlerType op ++ "\x7d " ++ op.name :=
    map_eq_of_forall₂ h.operations fun _ _ hop => by rw [handlerType_eq hop, hop.name]
  rw [handlersComment, handlersComment, hproperties, Contract.handlersName, Contract.handlersName,
    h.name]

/-! ## The same custom types, the same modules -/

theorem clientCode_eq (h : SamePieces c d) (htypes : c.customTypes = d.customTypes)
    (flavor : Flavor) : clientCode flavor c = clientCode flavor d := by
  have href : c.referencedTypes = d.referencedTypes := by
    rw [Contract.referencedTypes, Contract.referencedTypes, htypes, h.name]
  have hself : c.referencesSelf = d.referencesSelf := by
    rw [Contract.referencesSelf, Contract.referencesSelf, htypes, h.name]
  cases flavor with
  | typeScript =>
    rw [clientCode, typedClient, typedClient, h.header_eq, href, h.typedRegistry_eq,
      h.clientType_eq, hself, h.selfType_eq, h.typedFactory_eq]
  | javaScript =>
    rw [clientCode, commentedClient, commentedClient, h.header_eq, href, h.frozenRegistry_eq,
      h.commentedFactory_eq, hself, h.selfComment_eq]

theorem handlersCode_eq (h : SamePieces c d) (htypes : c.customTypes = d.customTypes)
    (flavor : Flavor) : handlersCode flavor c = handlersCode flavor d := by
  have himported : importedTypes c = importedTypes d := by
    rw [importedTypes, importedTypes, Contract.referencedTypes, Contract.referencedTypes,
      Contract.referencesSelf, Contract.referencesSelf, htypes, h.name]
  have himport : registryImport c flavor = registryImport d flavor := by
    rw [registryImport, registryImport, h.clientImport_eq, Contract.registryName,
      Contract.registryName, h.name]
  cases flavor with
  | typeScript =>
    rw [handlersCode, typedHandlers, typedHandlers, h.header_eq, himport, typeImport, typeImport,
      himported, h.clientImport_eq, h.handlersType_eq, h.typedRegistrar_eq]
  | javaScript =>
    have himports : (importedTypes c).map (commentImport c)
        = (importedTypes d).map (commentImport d) := by
      rw [himported]
      exact List.map_congr_left fun n _ => by rw [commentImport, commentImport, h.clientImport_eq]
    rw [handlersCode, commentedHandlers, commentedHandlers, h.header_eq, himport, himports,
      h.handlersComment_eq, registrarComment, registrarComment, Contract.handlersName,
      Contract.handlersName, h.name, h.commentedRegistrar_eq]

/-- **The same pieces and the same custom types make the same modules.** -/
theorem generate_eq (h : SamePieces c d) (htypes : c.customTypes = d.customTypes)
    (flavor : Flavor) : c.generate flavor = d.generate flavor := by
  have hintents := Contract.intents_eq_of_agrees (h.operations.imp fun _ _ hop => hop.toAgrees)
  rw [Contract.generate, Contract.generate, Contract.fileName, Contract.fileName,
    Contract.fileName, Contract.fileName, h.name, h.clientCode_eq htypes,
    h.handlersCode_eq htypes, hintents]

end SamePieces

/-! ## The same client, the same custom types -/

/-- The line that declares a custom type. -/
def declarationLine : Flavor → String → List Char
  | .typeScript, n => ("export type " ++ n ++ " = Record<string, unknown>;").toList
  | .javaScript, n => ("/** @typedef \x7bObject<string, *>\x7d " ++ n ++ " */").toList

/-- The line that declares the contract's own name as a type. -/
def selfLine (c : Contract) : Flavor → List Char
  | .typeScript => ("export type " ++ c.name ++ " = " ++ c.clientName ++ ";").toList
  | .javaScript =>
    ("/** @typedef \x7bReturnType<typeof " ++ c.factoryName ++ ">\x7d " ++ c.name ++ " */").toList

/-- The pieces of a client module that do not depend on custom types. -/
def commonCode (c : Contract) : Flavor → List Code
  | .typeScript =>
    header c .client ++ messageTypes ++ [typedRegistry c, .blank, clientType c, .blank]
      ++ [typedFactory c]
  | .javaScript =>
    header c .client ++ messageComments ++ [frozenRegistry c, .blank] ++ commentedFactory c

theorem SamePieces.commonCode_eq {c d : Contract} (h : SamePieces c d) (flavor : Flavor) :
    commonCode c flavor = commonCode d flavor := by
  cases flavor with
  | typeScript =>
    rw [commonCode, commonCode, h.header_eq, h.typedRegistry_eq, h.clientType_eq,
      h.typedFactory_eq]
  | javaScript =>
    rw [commonCode, commonCode, h.header_eq, h.frozenRegistry_eq, h.commentedFactory_eq]

theorem SamePieces.selfLine_eq {c d : Contract} (h : SamePieces c d) (flavor : Flavor) :
    selfLine c flavor = selfLine d flavor := by
  cases flavor with
  | typeScript =>
    rw [selfLine, selfLine, Contract.clientName, Contract.clientName, h.name]
  | javaScript =>
    rw [selfLine, selfLine, Contract.factoryName, Contract.factoryName, h.name]

section Count

open Code

variable {l : List Char}

theorem count_paragraph (hl : l ≠ []) (code : List Code) :
    (linesAllAt 0 (paragraph code)).count l = (linesAllAt 0 code).count l := by
  unfold paragraph
  split
  · next h => rw [List.isEmpty_iff.mp h]
  · have hblank : (linesAllAt 0 [.blank]).count l = 0 :=
      List.count_eq_zero_of_not_mem (by simpa [linesAllAt, linesAt] using hl)
    rw [linesAllAt_append, List.count_append, hblank, Nat.add_zero]

/-- **The lines of a client module**, apart from blank ones: those of the common pieces, the
declarations of custom types and, if the contract's own name is one, that of this name. -/
theorem count_clientCode (hl : l ≠ []) (flavor : Flavor) (c : Contract) :
    (linesAllAt 0 (clientCode flavor c)).count l
      = (linesAllAt 0 (commonCode c flavor)).count l
        + (c.referencedTypes.map (declarationLine flavor)).count l
        + (if c.referencesSelf then [selfLine c flavor] else []).count l := by
  cases flavor with
  | typeScript =>
    have hdeclared : linesAllAt 0 (c.referencedTypes.map typePlaceholder)
        = c.referencedTypes.map (declarationLine .typeScript) :=
      (linesAllAt_map_line 0 _ _).trans
        (List.map_congr_left fun n _ => by rw [lineChars_zero, declarationLine])
    have hself : linesAllAt 0 (if c.referencesSelf then [selfType c] else [])
        = if c.referencesSelf then [selfLine c .typeScript] else [] := by
      split
      · rw [linesAllAt, linesAllAt, selfType, linesAt, lineChars_zero]
        rfl
      · rfl
    simp only [clientCode, typedClient, commonCode, linesAllAt_append, List.count_append,
      count_paragraph hl, hdeclared, hself]
    omega
  | javaScript =>
    have hdeclared : linesAllAt 0 (c.referencedTypes.map commentPlaceholder)
        = c.referencedTypes.map (declarationLine .javaScript) :=
      (linesAllAt_map_line 0 _ _).trans
        (List.map_congr_left fun n _ => by rw [lineChars_zero, declarationLine])
    have hself : (linesAllAt 0 (if c.referencesSelf then [.blank, selfComment c] else [])).count l
        = (if c.referencesSelf then [selfLine c .javaScript] else []).count l := by
      split
      · rw [linesAllAt, linesAllAt, linesAllAt, selfComment, linesAt, linesAt, lineChars_zero,
          List.singleton_append, List.count_cons_of_ne hl.symm]
        rfl
      · rfl
    simp only [clientCode, commentedClient, commonCode, linesAllAt_append, List.count_append,
      count_paragraph hl, hdeclared, hself]
    omega

end Count

theorem declarationLine_injective (flavor : Flavor) :
    Function.Injective (declarationLine flavor) := by
  intro n m h
  cases flavor with
  | typeScript =>
    simpa [declarationLine, String.toList_inj] using h
  | javaScript =>
    simpa [declarationLine, String.toList_inj] using h

/-- The contract's own name is declared otherwise than a custom type. -/
theorem declarationLine_ne_selfLine (flavor : Flavor) (c : Contract) (n : String) :
    declarationLine flavor n ≠ selfLine c flavor := by
  intro h
  cases flavor with
  | typeScript =>
    -- the two lines end differently
    have hends : ("export type " ++ n ++ " = Record<string, unknown").toList ++ ">;".toList
        = ("export type " ++ c.name ++ " = " ++ c.name ++ "Clien").toList ++ "t;".toList := by
      simpa [declarationLine, selfLine, Contract.clientName] using h
    exact absurd (List.append_inj' hends rfl).2 (by decide)
  | javaScript => simp [declarationLine, selfLine] at h

theorem declarationLine_ne_nil (flavor : Flavor) (n : String) : declarationLine flavor n ≠ [] := by
  cases flavor <;> simp [declarationLine]

theorem selfLine_ne_nil (flavor : Flavor) (c : Contract) : selfLine c flavor ≠ [] := by
  cases flavor <;> simp [selfLine]

/-- A custom type is declared as one, or it is the contract's own name. -/
theorem mem_customTypes_iff {c : Contract} {n : String} :
    n ∈ c.customTypes ↔ n ∈ c.referencedTypes ∨ n = c.name ∧ c.referencesSelf = true := by
  rw [Contract.referencedTypes, List.mem_filter, Contract.referencesSelf, List.contains_iff_mem,
    bne_iff_ne]
  by_cases h : n = c.name
  · simp [h]
  · simp [h]

/-- **The same client module, the same custom types.** -/
theorem SamePieces.customTypes_eq {c d : Contract} (h : SamePieces c d) (hc : c.WellFormed)
    (hd : d.WellFormed) {flavor : Flavor}
    (htext : (c.generate flavor).client.text = (d.generate flavor).client.text) :
    c.customTypes = d.customTypes := by
  have hlines : Code.linesAllAt 0 (clientCode flavor c)
      = Code.linesAllAt 0 (clientCode flavor d) := by
    have hall := lines_client hc flavor
    rw [htext, lines_client hd flavor] at hall
    exact (List.append_cancel_right hall).symm
  have hcount : ∀ l ≠ [], (c.referencedTypes.map (declarationLine flavor)).count l
        + (if c.referencesSelf then [selfLine c flavor] else []).count l
      = (d.referencedTypes.map (declarationLine flavor)).count l
        + (if d.referencesSelf then [selfLine c flavor] else []).count l := fun l hl => by
    have hc := count_clientCode hl flavor c
    have hd := count_clientCode hl flavor d
    rw [hlines, h.commonCode_eq] at hc
    rw [← h.selfLine_eq] at hd
    omega
  have hdeclared : ∀ n, n ∈ c.referencedTypes ↔ n ∈ d.referencedTypes := fun n => by
    have hself : ∀ b : Bool,
        (if b then [selfLine c flavor] else []).count (declarationLine flavor n) = 0 := fun b => by
      refine List.count_eq_zero_of_not_mem ?_
      split <;> simp [declarationLine_ne_selfLine]
    have hn := hcount _ (declarationLine_ne_nil flavor n)
    rw [hself, hself, List.count_map_of_injective _ _ (declarationLine_injective flavor),
      List.count_map_of_injective _ _ (declarationLine_injective flavor)] at hn
    rw [← List.count_pos_iff, ← List.count_pos_iff]
    omega
  have hself : c.referencesSelf = d.referencesSelf := by
    have hdeclaration : ∀ ns : List String,
        (ns.map (declarationLine flavor)).count (selfLine c flavor) = 0 := fun ns => by
      refine List.count_eq_zero_of_not_mem ?_
      simp [declarationLine_ne_selfLine]
    have hn := hcount _ (selfLine_ne_nil flavor c)
    rw [hdeclaration, hdeclaration] at hn
    revert hn
    cases c.referencesSelf <;> cases d.referencesSelf <;> simp
  refine NameSet.ofList_eq_iff.mpr fun n => ?_
  exact mem_customTypes_iff.trans ((or_congr (hdeclared n) (by rw [h.name, hself])).trans
    mem_customTypes_iff.symm)

end Generated

/-! ## Linked data -/

namespace LinkedData

variable {c d : Contract}

/-- **Statements show no more than the name of a contract and its registry of intents.** -/
theorem turtle_congr (hname : c.name = d.name) (hintents : c.intents = d.intents)
    (table : PrefixTable) : turtle table c = turtle table d := by
  have hclass : ∀ t, classStatement t c = classStatement t d := fun t => by
    rw [classStatement, classStatement, classId, classId, hname]
  have hoperations : ∀ t, c.operations.map (operationStatements t c)
      = d.operations.map (operationStatements t d) := fun t =>
    map_eq_of_forall₂ (map_eq_map_iff_forall₂.mp hintents) fun _ _ h => by
      obtain ⟨hop, hintent, hproof⟩ := IntentEntry.mk.inj h
      rw [operationStatements, operationStatements, operationId_congr hname hop hintent, hop,
        hproof, classId, classId, hname]
  rw [turtle, turtle, statements, statements, hclass, List.flatMap_def, List.flatMap_def,
    hoperations]

end LinkedData

/-! ## Tracing artifacts -/

namespace Contract

/-- **What a canonical text stands for.** Contracts of two source texts with one canonical text
have one hash and, under every prefix table, the same description as linked data. In any flavor
they have the same modules just if they use the same of the names that the target has for
primitives, `number` and `string`, as custom types. -/
theorem artifacts_of_canonical_eq {source other : String} {c d : Contract}
    (hc : ofSource source = .ok c) (hd : ofSource other = .ok d)
    (h : c.canonical = d.canonical) :
    c.hash = d.hash
      ∧ (∀ table, LinkedData.graph table c = LinkedData.graph table d
        ∧ LinkedData.turtle table c = LinkedData.turtle table d)
      ∧ ∀ flavor, c.generate flavor = d.generate flavor
        ↔ ∀ n ∈ ["number", "string"], n ∈ c.customTypes ↔ n ∈ d.customTypes := by
  have hcwf := wellFormed_of_ofSource hc
  have hdwf := wellFormed_of_ofSource hd
  have hagrees := agrees_of_canonical_eq h
  have hpieces := Generated.samePieces_of_canonical_eq hcwf hdwf h
  have hintents := intents_eq_of_agrees hagrees.operations
  refine ⟨hpieces.hash, fun table => ⟨LinkedData.graph_congr hagrees.name hagrees.context
    (congrArg _ hagrees.semantic) hintents, LinkedData.turtle_congr hagrees.name hintents table⟩,
    fun flavor => ?_⟩
  refine Iff.trans ⟨fun hgenerate => ?_, fun htypes => hpieces.generate_eq htypes flavor⟩
    (customTypes_eq_iff hcwf hdwf hagrees)
  exact hpieces.customTypes_eq hcwf hdwf (congrArg (·.client.text) hgenerate)

/-- A nullable promise and a sequence have the texts of a promise and an array, and the same
modules. -/
theorem artifacts_of_canonical_eq_nullable :
    ∃ c d, ofSource "interface Shop \x7b Promise<Card?>? buy(sequence<Card> y); \x7d;" = .ok c
      ∧ ofSource "interface Shop \x7b Promise<Card> buy(Array<Card> y); \x7d;" = .ok d
      ∧ c.canonical = d.canonical ∧ ∀ flavor, c.generate flavor = d.generate flavor := by
  have hc : ofSource "interface Shop \x7b Promise<Card?>? buy(sequence<Card> y); \x7d;"
      = .ok ⟨"Shop", none, none, [⟨"buy", [⟨"y", .generic "sequence" [.primitive "Card"]⟩],
        some (.nullable (.generic "Promise" [.nullable (.primitive "Card")])),
        .ofAttributes []⟩]⟩ := by
    with_unfolding_all rfl
  have hd : ofSource "interface Shop \x7b Promise<Card> buy(Array<Card> y); \x7d;"
      = .ok ⟨"Shop", none, none, [⟨"buy", [⟨"y", .generic "Array" [.primitive "Card"]⟩],
        some (.generic "Promise" [.primitive "Card"]), .ofAttributes []⟩]⟩ := by
    with_unfolding_all rfl
  refine ⟨_, _, hc, hd, by with_unfolding_all rfl, fun flavor => ?_⟩
  refine ((artifacts_of_canonical_eq hc hd (by with_unfolding_all rfl)).2.2 flavor).mpr ?_
  decide

/-- **A custom type `number` and a number have one hash and different clients.** -/
theorem client_of_canonical_eq_number :
    ∃ c d, ofSource "interface I \x7b void f(number x); \x7d;" = .ok c
      ∧ ofSource "interface I \x7b void f(double x); \x7d;" = .ok d
      ∧ c.canonical = d.canonical
      ∧ ∀ flavor, (c.generate flavor).client.text ≠ (d.generate flavor).client.text := by
  have hc : ofSource "interface I \x7b void f(number x); \x7d;"
      = .ok ⟨"I", none, none,
        [⟨"f", [⟨"x", .primitive "number"⟩], some (.primitive "void"), .ofAttributes []⟩]⟩ := by
    with_unfolding_all rfl
  have hd : ofSource "interface I \x7b void f(double x); \x7d;"
      = .ok ⟨"I", none, none,
        [⟨"f", [⟨"x", .primitive "double"⟩], some (.primitive "void"), .ofAttributes []⟩]⟩ := by
    with_unfolding_all rfl
  refine ⟨_, _, hc, hd, by with_unfolding_all rfl, fun flavor htext => ?_⟩
  have hcwf := wellFormed_of_ofSource hc
  have hdwf := wellFormed_of_ofSource hd
  have htypes := (Generated.samePieces_of_canonical_eq hcwf hdwf
    (by with_unfolding_all rfl)).customTypes_eq hcwf hdwf htext
  exact absurd htypes (by decide)

end Contract

end IntentContract
