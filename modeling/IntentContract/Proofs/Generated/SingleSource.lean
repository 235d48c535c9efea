import IntentContract.Proofs.Contract.Canonical
import IntentContract.Proofs.Generated.Lines

/-!
# The registry is the only source of intents

Generated code refers to the intents and proofs of operations by the registry, and states them
nowhere else. To see this, two contracts are compared that have the same signatures and differ in
all that is said about meaning: intents, proofs, addresses and other extensions. Their modules can
be laid side by side, line by line. The line with the hash differs, and so do the entries of the
registry; every other line is the same (`modules_differ_in_registry`).

The comparison goes by way of a third contract, the **plain** one, which has the signatures and no
meaning at all. A piece of code that comes out the same for a contract and for the plain one does
not depend on meaning.

Nothing is assumed of the names, which may have line breaks in them. A piece of code then takes
several lines of the text, but the same ones in both modules.
-/

namespace IntentContract

/-! ## Signatures -/

/-- Operations with one signature: the same name, parameters and result. -/
structure ContractOperation.SameSignature (o p : ContractOperation) : Prop where
  name : o.name = p.name
  parameters : o.parameters = p.parameters
  returns : o.returns = p.returns

/-- **Contracts with the same signatures**: the same name and, one by one, operations with one
signature. Nothing is said about what they mean. -/
structure Contract.SameSignatures (c d : Contract) : Prop where
  name : c.name = d.name
  operations : List.Forall₂ ContractOperation.SameSignature c.operations d.operations

/-- An operation without a meaning. -/
def ContractOperation.plain (op : ContractOperation) : ContractOperation :=
  { op with extensions := .ofAttributes [] }

/-- A contract without a meaning. -/
def Contract.plain (c : Contract) : Contract :=
  ⟨c.name, none, none, c.operations.map ContractOperation.plain⟩

theorem ContractOperation.SameSignature.plain_eq {o p : ContractOperation}
    (h : o.SameSignature p) : o.plain = p.plain := by
  rw [plain, plain, h.name, h.parameters, h.returns]

/-- **Contracts with the same signatures are one plain contract.** -/
theorem Contract.SameSignatures.plain_eq {c d : Contract} (h : c.SameSignatures d) :
    c.plain = d.plain := by
  have hoperations := map_eq_map_iff_forall₂.mpr (h.operations.imp fun _ _ hop => hop.plain_eq)
  rw [plain, plain, h.name, hoperations]

/-! ## Lines of any text -/

namespace Text

theorem lines_of_oneLine {s : String} (h : OneLine s) : lines s = [s.toList] :=
  List.splitOn_eq_singleton h

/-- There is one line more than there are line breaks. -/
theorem length_lines (s : String) : (lines s).length = s.toList.count '\n' + 1 := by
  have go : ∀ (n : Nat) (cs : List Char), cs.length = n →
      (cs.splitOn '\n').length = cs.count '\n' + 1 := by
    intro n
    induction n using Nat.strongRecOn with
    | ind n ih =>
      rintro cs rfl
      by_cases hbreak : '\n' ∈ cs
      · -- The text breaks for the first time behind `front`, and `back` is shorter.
        obtain ⟨front, back, rfl, hfront⟩ := List.eq_append_cons_of_mem hbreak
        rw [List.splitOn_append_cons_self_of_not_mem hfront, List.length_cons,
          ih back.length (by simp; omega) back rfl, List.count_append, List.count_cons_self,
          List.count_eq_zero_of_not_mem hfront, Nat.zero_add]
      · rw [List.splitOn_eq_singleton hbreak, List.count_eq_zero_of_not_mem hbreak]
        rfl
  exact go _ _ rfl

end Text

namespace Code

/-- The lines that the text of code takes, where its own lines may be broken. -/
def textLines (depth : Nat) (code : List Code) : List (List Char) :=
  (linesAllAt depth code).flatMap (List.splitOn '\n')

theorem textLines_append (depth : Nat) (code more : List Code) :
    textLines depth (code ++ more) = textLines depth code ++ textLines depth more := by
  rw [textLines, linesAllAt_append, List.flatMap_append, textLines, textLines]

theorem textLines_cons (depth : Nat) (piece : Code) (code : List Code) :
    textLines depth (piece :: code) = textLines depth [piece] ++ textLines depth code :=
  textLines_append depth [piece] code

/-- **The lines of the text of any code.** -/
theorem lines_render_eq_textLines (code : List Code) :
    Text.lines (render code) = textLines 0 code ++ [[]] := by
  have go : ∀ ls : List (List Char), (ls.flatMap (· ++ ['\n'])).splitOn '\n'
      = ls.flatMap (List.splitOn '\n') ++ [[]] := by
    intro ls
    induction ls with
    | nil => rfl
    | cons l ls ih =>
      rw [List.flatMap_cons, List.append_assoc, List.singleton_append,
        List.splitOn_append_cons_self, ih, List.flatMap_cons, List.append_assoc]
  rw [Text.lines, render, toList_renderAllAt]
  exact go _

end Code

namespace Generated

open Code

/-! ## What does not depend on meaning -/

section Plain

variable (c : Contract)

/-- What is made of each operation is made of the plain ones, if it does not depend on meaning. -/
theorem map_plain {β : Type} {f g : ContractOperation → β} (h : ∀ op, f op.plain = g op) :
    c.plain.operations.map f = c.operations.map g := by
  rw [Contract.plain, List.map_map]
  exact List.map_congr_left fun op _ => h op

theorem flatMap_plain {β : Type} {f g : ContractOperation → List β}
    (h : ∀ op, f op.plain = g op) : c.plain.operations.flatMap f = c.operations.flatMap g := by
  rw [List.flatMap_def, List.flatMap_def, map_plain c h]

theorem customTypes_plain : c.plain.customTypes = c.customTypes := by
  rw [Contract.customTypes, flatMap_plain c fun _ => rfl]
  rfl

theorem referencedTypes_plain : c.plain.referencedTypes = c.referencedTypes := by
  rw [Contract.referencedTypes, customTypes_plain]
  rfl

theorem referencesSelf_plain : c.plain.referencesSelf = c.referencesSelf := by
  rw [Contract.referencesSelf, customTypes_plain]
  rfl

theorem importedTypes_plain : importedTypes c.plain = importedTypes c := by
  rw [importedTypes, referencedTypes_plain, referencesSelf_plain]
  rfl

theorem clientType_plain : clientType c.plain = clientType c := by
  rw [clientType, map_plain c fun _ => rfl]
  rfl

theorem typedFactory_plain : typedFactory c.plain = typedFactory c := by
  rw [typedFactory, map_plain c fun _ => rfl]
  rfl

theorem commentedFactory_plain : commentedFactory c.plain = commentedFactory c := by
  rw [commentedFactory, flatMap_plain c fun _ => rfl]
  rfl

theorem handlersType_plain : handlersType c.plain = handlersType c := by
  rw [handlersType, map_plain c fun _ => rfl]
  rfl

theorem typedRegistrar_plain : typedRegistrar c.plain = typedRegistrar c := by
  rw [typedRegistrar, map_plain c fun _ => rfl]
  rfl

theorem handlersComment_plain : handlersComment c.plain = handlersComment c := by
  rw [handlersComment, map_plain c fun _ => rfl]
  rfl

theorem commentedRegistrar_plain : commentedRegistrar c.plain = commentedRegistrar c := by
  rw [commentedRegistrar, map_plain c fun _ => rfl]
  rfl

end Plain

/-! ## The modules in parts -/

/-- The code of a handler module behind its header. -/
def handlersBody : Flavor → Contract → List Code
  | .typeScript, c =>
    [registryImport c .typeScript, typeImport c, .blank, runtimeType, .blank, handlersType c,
      .blank, typedRegistrar c]
  | .javaScript, c =>
    [registryImport c .javaScript, .blank] ++ (importedTypes c).map (commentImport c) ++ [.blank]
      ++ handlersComment c ++ [.blank] ++ registrarComment c ++ [commentedRegistrar c]

/-- The code of a client module between its header and the registry. -/
def beforeRegistry : Flavor → Contract → List Code
  | .typeScript, c => messageTypes ++ paragraph (c.referencedTypes.map typePlaceholder)
  | .javaScript, c => messageComments ++ paragraph (c.referencedTypes.map commentPlaceholder)

/-- The code of a client module behind the registry. -/
def behindRegistry : Flavor → Contract → List Code
  | .typeScript, c =>
    [.blank, clientType c, .blank] ++ paragraph (if c.referencesSelf then [selfType c] else [])
      ++ [typedFactory c]
  | .javaScript, c =>
    [.blank] ++ commentedFactory c ++ (if c.referencesSelf then [.blank, selfComment c] else [])

/-- The line that opens the registry. -/
def registryOpening : Flavor → Contract → String
  | .typeScript, c => "export const " ++ c.registryName ++ " = \x7b"
  | .javaScript, c => "export const " ++ c.registryName ++ " = Object.freeze(\x7b"

/-- The line that closes the registry. -/
def registryClosing : Flavor → String
  | .typeScript => "\x7d as const;"
  | .javaScript => "\x7d);"

/-- **The text of an entry**, from its row of the registry alone. -/
def entryText : Flavor → IntentEntry → String
  | .typeScript, e =>
    e.operation ++ ": \x7b intent: " ++ Json.literal e.intent ++ ", proof: "
      ++ literalOrNull e.proof ++ " \x7d,"
  | .javaScript, e =>
    e.operation ++ ": Object.freeze(\x7b intent: " ++ Json.literal e.intent ++ ", proof: "
      ++ literalOrNull e.proof ++ " \x7d),"

/-- The lines of the entries of a registry. -/
def entryLines (flavor : Flavor) (entries : List IntentEntry) : List (List Char) :=
  entries.flatMap fun e => Text.lines ("  " ++ entryText flavor e)

/-- The line with the hash of a contract. -/
def hashLine (c : Contract) : List Char :=
  ("// model sha256:" ++ c.hash).toList

variable (flavor : Flavor) (c : Contract)

theorem handlersCode_eq_append :
    handlersCode flavor c = header c .handlers ++ handlersBody flavor c := by
  cases flavor with
  | typeScript => simp [handlersCode, typedHandlers, handlersBody]
  | javaScript => simp [handlersCode, commentedHandlers, handlersBody]

theorem clientCode_eq_append :
    clientCode flavor c = header c .client ++ beforeRegistry flavor c
      ++ .block (registryOpening flavor c) (c.intents.map fun e => .line (entryText flavor e))
          (registryClosing flavor) :: behindRegistry flavor c := by
  have hentries : ∀ entry : ContractOperation → String,
      (∀ op, entry op = entryText flavor ⟨op.name, op.intent, op.proof⟩) →
      (c.operations.map fun op => Code.line (entry op))
        = c.intents.map fun e => .line (entryText flavor e) := fun entry h => by
    rw [Contract.intents, List.map_map]
    exact List.map_congr_left fun op _ => congrArg Code.line (h op)
  cases flavor with
  | typeScript =>
    simp [clientCode, typedClient, typedRegistry, hentries registryEntry fun _ => rfl,
      beforeRegistry, behindRegistry, registryOpening, registryClosing]
  | javaScript =>
    simp [clientCode, commentedClient, frozenRegistry, hentries frozenEntry fun _ => rfl,
      beforeRegistry, behindRegistry, registryOpening, registryClosing]

theorem handlersBody_plain : handlersBody flavor c.plain = handlersBody flavor c := by
  cases flavor with
  | typeScript =>
    rw [handlersBody, typeImport, importedTypes_plain, handlersType_plain, typedRegistrar_plain]
    rfl
  | javaScript =>
    rw [handlersBody, importedTypes_plain, handlersComment_plain, commentedRegistrar_plain]
    rfl

theorem beforeRegistry_plain : beforeRegistry flavor c.plain = beforeRegistry flavor c := by
  cases flavor <;> rw [beforeRegistry, referencedTypes_plain, beforeRegistry]

theorem behindRegistry_plain : behindRegistry flavor c.plain = behindRegistry flavor c := by
  cases flavor with
  | typeScript =>
    rw [behindRegistry, clientType_plain, referencesSelf_plain, typedFactory_plain]
    rfl
  | javaScript =>
    rw [behindRegistry, commentedFactory_plain, referencesSelf_plain]
    rfl

/-! ## The lines of the modules -/

/-- The lines of the title that a module starts with. -/
def titleLines (c : Contract) (kind : ModuleKind) : List (List Char) :=
  Text.lines ("// Generated by agentidl from interface " ++ c.name ++ " (" ++ kind.name
    ++ "). Do not edit.")

theorem textLines_line (text : String) : textLines 0 [.line text] = Text.lines text := by
  simp [textLines, linesAllAt, linesAt, lineChars_zero, Text.lines]

/-- A header is the title, the line with the hash and an empty line. -/
theorem textLines_header (kind : ModuleKind) :
    textLines 0 (header c kind) = titleLines c kind ++ [hashLine c, []] := by
  have hhash : Text.lines ("// model sha256:" ++ c.hash) = [hashLine c] :=
    Text.lines_of_oneLine (by simp +decide)
  rw [header, textLines_cons, textLines_cons 0 (.line ("// model sha256:" ++ c.hash)),
    textLines_line, textLines_line, hhash]
  rfl

/-- The registry is an opening line, the entries and a closing line. -/
theorem textLines_registry (entries : List IntentEntry) (opening closing : String) :
    textLines 0 [.block opening (entries.map fun e => .line (entryText flavor e)) closing]
      = Text.lines opening ++ entryLines flavor entries ++ Text.lines closing := by
  have hentry : ∀ e, (lineChars 1 (entryText flavor e)).splitOn '\n'
      = Text.lines ("  " ++ entryText flavor e) := fun e => by
    have hne : entryText flavor e ≠ "" := fun h => by
      have := congrArg String.toList h
      cases flavor <;> simp [entryText] at this
    rw [lineChars, if_neg hne, Text.lines, String.toList_append]
    rfl
  rw [textLines, linesAllAt, linesAt, linesAllAt_map_line, lineChars_zero, lineChars_zero]
  simp [linesAllAt, List.flatMap_map, hentry, entryLines, Text.lines]

theorem lines_handlers_eq :
    Text.lines (c.generate flavor).handlers.text
      = titleLines c .handlers
        ++ hashLine c :: ([] :: textLines 0 (handlersBody flavor c) ++ [[]]) := by
  rw [Contract.generate, lines_render_eq_textLines, handlersCode_eq_append, textLines_append,
    textLines_header]
  simp

theorem lines_client_eq :
    Text.lines (c.generate flavor).client.text
      = titleLines c .client ++ hashLine c ::
        ([] :: textLines 0 (beforeRegistry flavor c) ++ Text.lines (registryOpening flavor c)
          ++ entryLines flavor c.intents
          ++ (Text.lines (registryClosing flavor) ++ textLines 0 (behindRegistry flavor c)
            ++ [[]])) := by
  rw [Contract.generate, lines_render_eq_textLines, clientCode_eq_append, textLines_append,
    textLines_append, textLines_header, textLines_cons, textLines_registry]
  simp

/-- An entry takes as many lines as the name of its operation. -/
theorem length_lines_entryText (e : IntentEntry) :
    (Text.lines (entryText flavor e)).length = (Text.lines e.operation).length := by
  have hproof := List.count_eq_zero_of_not_mem (oneLine_literalOrNull e.proof)
  have hintent := List.count_eq_zero_of_not_mem (Text.oneLine_literal e.intent)
  rw [Text.length_lines, Text.length_lines]
  -- what is left is the line breaks in the fixed texts of an entry: there are none
  cases flavor <;>
    simp only [entryText, String.toList_append, List.count_append, hproof, hintent] <;> rfl

/-- **Generated code depends on meaning only through the registry.** Let two contracts have the same
signatures, and differ in their intents, proofs, addresses and other extensions as they may. In
each flavor their handler modules are the same line by line, but for the line with the hash. Their
client modules are the same but for that line and for the entries of the registry, which come from
the rows of the registry alone and take the same number of lines each. -/
theorem modules_differ_in_registry {c d : Contract} (h : c.SameSignatures d) (flavor : Flavor) :
    (∃ front back,
      Text.lines (c.generate flavor).handlers.text = front ++ hashLine c :: back
      ∧ Text.lines (d.generate flavor).handlers.text = front ++ hashLine d :: back)
    ∧ (∃ front middle back,
      Text.lines (c.generate flavor).client.text
        = front ++ hashLine c :: (middle ++ entryLines flavor c.intents ++ back)
      ∧ Text.lines (d.generate flavor).client.text
        = front ++ hashLine d :: (middle ++ entryLines flavor d.intents ++ back))
    ∧ List.Forall₂ (fun e e' => (Text.lines (entryText flavor e)).length
        = (Text.lines (entryText flavor e')).length) c.intents d.intents := by
  have hplain := h.plain_eq
  have htitle : ∀ kind, titleLines c kind = titleLines d kind := fun kind => by
    rw [titleLines, titleLines, h.name]
  have hbody : handlersBody flavor c = handlersBody flavor d := by
    rw [← handlersBody_plain, hplain, handlersBody_plain]
  have hbefore : beforeRegistry flavor c = beforeRegistry flavor d := by
    rw [← beforeRegistry_plain, hplain, beforeRegistry_plain]
  have hbehind : behindRegistry flavor c = behindRegistry flavor d := by
    rw [← behindRegistry_plain, hplain, behindRegistry_plain]
  have hopening : registryOpening flavor c = registryOpening flavor d := by
    cases flavor <;> rw [registryOpening, Contract.registryName, h.name] <;> rfl
  refine ⟨⟨_, _, lines_handlers_eq flavor c, ?_⟩, ⟨_, _, _, lines_client_eq flavor c, ?_⟩, ?_⟩
  · rw [lines_handlers_eq, htitle, hbody]
  · rw [lines_client_eq, htitle, hbefore, hbehind, hopening]
  · rw [Contract.intents, Contract.intents, List.forall₂_map_left_iff, List.forall₂_map_right_iff]
    refine h.operations.imp fun o p hop => ?_
    rw [length_lines_entryText, length_lines_entryText, hop.name]

/-- Two shops with one operation. In one the intent breaks a line and looks like the end of the
registry, and in the other nothing is said about meaning. -/
theorem modules_differ_in_registry_shop :
    let buy : Extensions → ContractOperation := fun extensions =>
      ⟨"buy", [⟨"card", .primitive "Card"⟩], some (.primitive "void"), extensions⟩
    let c : Contract := ⟨"Shop", some "urn:shop", none,
      [buy ⟨none, none, some "agent:Buy\n\x7d as const;", some "proof:Paid", true, none⟩]⟩
    let d : Contract := ⟨"Shop", none, some "agent:Market", [buy (.ofAttributes [])]⟩
    c.SameSignatures d ∧ c.intents ≠ d.intents ∧ ∀ flavor,
      (∃ front back,
        Text.lines (c.generate flavor).handlers.text = front ++ hashLine c :: back
        ∧ Text.lines (d.generate flavor).handlers.text = front ++ hashLine d :: back)
      ∧ ∃ front middle back,
        Text.lines (c.generate flavor).client.text
          = front ++ hashLine c :: (middle ++ entryLines flavor c.intents ++ back)
        ∧ Text.lines (d.generate flavor).client.text
          = front ++ hashLine d :: (middle ++ entryLines flavor d.intents ++ back) := by
  intro buy c d
  have h : c.SameSignatures d := ⟨rfl, .cons ⟨rfl, rfl, rfl⟩ .nil⟩
  refine ⟨h, by decide, fun flavor => ?_⟩
  obtain ⟨hhandlers, hclient, -⟩ := modules_differ_in_registry h flavor
  exact ⟨hhandlers, hclient⟩

end Generated

end IntentContract
