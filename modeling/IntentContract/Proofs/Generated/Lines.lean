import IntentContract.Generated.Handlers
import IntentContract.Proofs.Contract.Uses
import IntentContract.Proofs.Json.Literal

/-!
# The lines of generated code

Rendering puts the texts of the pieces of code on lines of their own. No text breaks a line: the
names are words, the types are of words and brackets, the hash is of digits, and what is
arbitrary – intents and proofs – is in literals, which escape the line breaks in them. So the
lines of the text are the lines of the code (`lines_client`, `lines_handlers`), and what is said
of the text of a module can be proved from its pieces.
-/

namespace IntentContract

/-! ## Texts on one line -/

namespace Text

/-- A text without a line break. -/
def OneLine (s : String) : Prop :=
  '\n' ∉ s.toList

instance (s : String) : Decidable (OneLine s) :=
  inferInstanceAs (Decidable ('\n' ∉ s.toList))

@[simp] theorem oneLine_append {s t : String} : OneLine (s ++ t) ↔ OneLine s ∧ OneLine t := by
  simp [OneLine, not_or]

/-- A text that is written out is looked through character by character. -/
theorem oneLine_ofList {cs : List Char} (h : '\n' ∉ cs) : OneLine (String.ofList cs) := by
  rwa [OneLine, String.toList_ofList]

@[simp] theorem oneLine_literal (s : String) : OneLine (Json.literal s) :=
  Json.newline_not_mem_literal s

theorem oneLine_join {separator : String} (hsep : OneLine separator) {ss : List String}
    (h : ∀ s ∈ ss, OneLine s) : OneLine (join separator ss) :=
  not_mem_join hsep h

/-- The lines of a text. -/
def lines (text : String) : List (List Char) :=
  text.toList.splitOn '\n'

end Text

/-! ## Lines of code -/

namespace Code

mutual

/-- Code whose texts have no line breaks. -/
def OneLine : Code → Prop
  | .blank => True
  | .line text => Text.OneLine text
  | .block opening body closing => Text.OneLine opening ∧ AllOneLine body ∧ Text.OneLine closing

/-- Pieces of code whose texts have no line breaks. -/
def AllOneLine : List Code → Prop
  | [] => True
  | c :: rest => OneLine c ∧ AllOneLine rest

end

/-- The characters of a line at a depth. -/
def lineChars (depth : Nat) (text : String) : List Char :=
  if text = "" then [] else List.replicate (2 * depth) ' ' ++ text.toList

mutual

/-- **The lines of a piece of code.** -/
def linesAt (depth : Nat) : Code → List (List Char)
  | .blank => [[]]
  | .line text => [lineChars depth text]
  | .block opening body closing =>
    lineChars depth opening :: (linesAllAt (depth + 1) body ++ [lineChars depth closing])

/-- The lines of a list of pieces. -/
def linesAllAt (depth : Nat) : List Code → List (List Char)
  | [] => []
  | c :: rest => linesAt depth c ++ linesAllAt depth rest

end

@[simp] theorem allOneLine_iff {code : List Code} :
    AllOneLine code ↔ ∀ c ∈ code, OneLine c := by
  induction code with
  | nil => simp [AllOneLine]
  | cons c code ih => rw [AllOneLine, ih, List.forall_mem_cons]

theorem oneLine_block {opening closing : String} {body : List Code} :
    OneLine (.block opening body closing)
      ↔ Text.OneLine opening ∧ (∀ c ∈ body, OneLine c) ∧ Text.OneLine closing := by
  rw [OneLine, allOneLine_iff]

theorem linesAllAt_eq_flatMap (depth : Nat) (code : List Code) :
    linesAllAt depth code = code.flatMap (linesAt depth) := by
  induction code with
  | nil => rfl
  | cons c code ih => rw [linesAllAt, ih, List.flatMap_cons]

theorem linesAllAt_append (depth : Nat) (code more : List Code) :
    linesAllAt depth (code ++ more) = linesAllAt depth code ++ linesAllAt depth more := by
  simp only [linesAllAt_eq_flatMap, List.flatMap_append]

/-- Texts on lines of their own. -/
theorem linesAllAt_map_line {α : Type} (depth : Nat) (f : α → String) (as : List α) :
    linesAllAt depth (as.map fun a => .line (f a)) = as.map fun a => lineChars depth (f a) := by
  rw [linesAllAt_eq_flatMap, List.flatMap_map, List.map_eq_flatMap]
  rfl

theorem lineChars_zero (text : String) : lineChars 0 text = text.toList := by
  unfold lineChars
  split
  · next h => rw [h]; rfl
  · rfl

theorem toList_lineText (depth : Nat) (text : String) :
    (lineText depth text).toList = lineChars depth text ++ ['\n'] := by
  unfold lineText lineChars
  split
  · rfl
  · simp

mutual

/-- Each line of a piece of code has a line break behind it. -/
theorem toList_renderAt (depth : Nat) (c : Code) :
    (renderAt depth c).toList = (linesAt depth c).flatMap (· ++ ['\n']) := by
  cases c with
  | blank => simp [renderAt, linesAt]
  | line text => simp [renderAt, linesAt, toList_lineText]
  | block opening body closing =>
    simp [renderAt, linesAt, toList_lineText, toList_renderAllAt (depth + 1) body]

theorem toList_renderAllAt (depth : Nat) (code : List Code) :
    (renderAllAt depth code).toList = (linesAllAt depth code).flatMap (· ++ ['\n']) := by
  cases code with
  | nil => rfl
  | cons c rest =>
    simp [renderAllAt, linesAllAt, toList_renderAt depth c, toList_renderAllAt depth rest]

end

theorem newline_not_mem_lineChars {text : String} (h : Text.OneLine text) (depth : Nat) :
    '\n' ∉ lineChars depth text := by
  unfold lineChars
  split
  · exact List.not_mem_nil
  · rw [List.mem_append, not_or]
    exact ⟨by simp [List.mem_replicate], h⟩

mutual

/-- No line of such code is broken. -/
theorem newline_not_mem_linesAt (depth : Nat) {c : Code} (h : OneLine c) :
    ∀ l ∈ linesAt depth c, '\n' ∉ l := by
  cases c with
  | blank => simp [linesAt]
  | line text => simpa [linesAt] using newline_not_mem_lineChars h depth
  | block opening body closing =>
    obtain ⟨hopening, hbody, hclosing⟩ := h
    rw [linesAt, List.forall_mem_cons, List.forall_mem_append, List.forall_mem_singleton]
    exact ⟨newline_not_mem_lineChars hopening depth,
      newline_not_mem_linesAllAt (depth + 1) hbody, newline_not_mem_lineChars hclosing depth⟩

theorem newline_not_mem_linesAllAt (depth : Nat) {code : List Code} (h : AllOneLine code) :
    ∀ l ∈ linesAllAt depth code, '\n' ∉ l := by
  cases code with
  | nil => exact List.forall_mem_nil _
  | cons c rest =>
    rw [linesAllAt, List.forall_mem_append]
    exact ⟨newline_not_mem_linesAt depth h.1, newline_not_mem_linesAllAt depth h.2⟩

end

/-- Lines with line breaks behind them are found again between the breaks. -/
theorem splitOn_flatMap {ls : List (List Char)} (h : ∀ l ∈ ls, '\n' ∉ l) :
    (ls.flatMap (· ++ ['\n'])).splitOn '\n' = ls ++ [[]] := by
  induction ls with
  | nil => rfl
  | cons l ls ih =>
    rw [List.forall_mem_cons] at h
    rw [List.flatMap_cons, List.append_assoc, List.singleton_append,
      List.splitOn_append_cons_self_of_not_mem h.1, ih h.2, List.cons_append]

/-- **The lines of the text are the lines of the code.** -/
theorem lines_render {code : List Code} (h : AllOneLine code) :
    Text.lines (render code) = linesAllAt 0 code ++ [[]] := by
  rw [Text.lines, render, toList_renderAllAt]
  exact splitOn_flatMap (newline_not_mem_linesAllAt 0 h)

end Code

/-! ## What the modules are made of -/

theorem Text.oneLine_of_isWord {n : String} (h : isWord n = true) : OneLine n := fun hmem =>
  absurd (isWordPart_of_isWord h _ hmem) (by decide)

theorem TypeDescriptor.WellFormed.oneLine_text {d : TypeDescriptor} (h : d.WellFormed .parsed) :
    Text.OneLine d.text := fun hmem =>
  absurd (h.isTypeChar_text _ hmem) (by decide)

theorem TypeDescriptor.WellFormed.oneLine_awaitedText {d : TypeDescriptor}
    (h : d.WellFormed .parsed) : Text.OneLine d.awaitedText := fun hmem =>
  absurd (h.isTypeChar_awaitedText _ hmem) (by decide)

/-- The digits of a number are digits. -/
theorem Text.hexValue?_of_mem_hexDigits {width n : Nat} {c : Char} (h : c ∈ hexDigits width n) :
    (hexValue? c).isSome = true := by
  induction width generalizing n with
  | zero => cases h
  | succ width ih =>
    rw [hexDigits, List.mem_append, List.mem_singleton] at h
    rcases h with h | rfl
    · exact ih h
    · rw [hexValue?_hexDigit (Nat.mod_lt n (by decide))]
      rfl

/-- The hash is of digits. -/
theorem Contract.hexValue?_of_mem_hash {c : Contract} {x : Char} (h : x ∈ c.hash.toList) :
    (Text.hexValue? x).isSome = true := by
  rw [hash, Sha256.hexDigest, String.toList_ofList, List.mem_flatMap] at h
  obtain ⟨_, -, hx⟩ := h
  exact Text.hexValue?_of_mem_hexDigits hx

@[simp] theorem Contract.oneLine_hash (c : Contract) : Text.OneLine c.hash := fun hmem =>
  absurd (hexValue?_of_mem_hash hmem) (by decide)

/-- What stands in the lines about an operation. -/
structure ContractOperation.OneLine (op : ContractOperation) : Prop where
  name : Text.OneLine op.name
  parameterName : ∀ p ∈ op.parameters, Text.OneLine p.name
  parameterType : ∀ p ∈ op.parameters, Text.OneLine p.type.text
  awaitedText : Text.OneLine op.awaitedText

theorem ContractOperation.WellFormed.oneLine {op : ContractOperation} (h : op.WellFormed) :
    op.OneLine where
  name := Text.oneLine_of_isWord h.name
  parameterName p hp := Text.oneLine_of_isWord (h.parameters p hp).name
  parameterType p hp := (h.parameters p hp).type.oneLine_text
  awaitedText := by
    obtain ⟨d, hd, hwf⟩ := h.returns
    rw [ContractOperation.awaitedText, hd]
    exact hwf.oneLine_awaitedText

/-! ## The modules -/

namespace Generated

open Text

section Pieces

variable {c : Contract} {op : ContractOperation}

theorem oneLine_paragraph {code : List Code} (h : ∀ l ∈ code, l.OneLine) :
    ∀ l ∈ paragraph code, l.OneLine := by
  unfold paragraph
  split
  · exact List.forall_mem_nil _
  · exact List.forall_mem_append.mpr ⟨h, by simp [Code.OneLine]⟩

theorem oneLine_docComment {texts : List String} (h : ∀ s ∈ texts, OneLine s) :
    ∀ l ∈ docComment texts, l.OneLine := by
  rw [docComment, List.forall_mem_append, List.forall_mem_cons, List.forall_mem_map]
  have hopening : OneLine "/**" := by decide
  have hclosing : OneLine " */" := by decide
  exact ⟨⟨hopening, fun s hs => oneLine_append.mpr ⟨by decide, h s hs⟩⟩, by simpa [Code.OneLine]⟩

theorem oneLine_header (hname : OneLine c.name) (kind : ModuleKind) :
    ∀ l ∈ header c kind, l.OneLine := by
  have hkind : OneLine kind.name := by cases kind <;> exact oneLine_ofList (by decide)
  simp only [header, List.forall_mem_cons, List.not_mem_nil, IsEmpty.forall_iff, implies_true,
    Code.OneLine, oneLine_append, hname, hkind, Contract.oneLine_hash, and_true]
  and_intros <;> exact oneLine_ofList (by decide)

theorem oneLine_literalOrNull (value : Option String) : OneLine (literalOrNull value) := by
  cases value with
  | none => decide
  | some s => exact oneLine_literal s

theorem oneLine_sentFields (hname : OneLine c.name) (h : op.OneLine) :
    ∀ l ∈ sentFields c op, l.OneLine := by
  have hpayload : OneLine (payloadLiteral op) := by
    unfold payloadLiteral
    split
    · decide
    · have hjoin := oneLine_join (by decide : OneLine ", ")
        (List.forall_mem_map.mpr h.parameterName)
      simp +decide [ContractOperation.parameterNames, hjoin]
  simp only [sentFields, List.forall_mem_cons, List.not_mem_nil, IsEmpty.forall_iff, implies_true,
    Code.OneLine, Contract.registryName, oneLine_append, hname, h.name, hpayload, true_and,
    and_true]
  and_intros <;> exact oneLine_ofList (by decide)

theorem oneLine_typedParameters (h : op.OneLine) :
    ∀ s ∈ op.parameters.map typedParameter, OneLine s :=
  List.forall_mem_map.mpr fun p hp => by
    simp +decide [typedParameter, h.parameterName p hp, h.parameterType p hp]

theorem oneLine_clientSignature (h : op.OneLine) : OneLine (clientSignature op) := by
  have hjoin := oneLine_join (by decide : OneLine ", ") (oneLine_typedParameters h)
  simp +decide [clientSignature, h.name, hjoin, h.awaitedText]

theorem oneLine_typedMethod (hname : OneLine c.name) (h : op.OneLine) :
    (typedMethod c op).OneLine := by
  have hsend : (Code.block "return transport.send(\x7b" (sentFields c op)
      ("\x7d) as Promise<" ++ op.awaitedText ++ ">;")).OneLine :=
    Code.oneLine_block.mpr
      ⟨by decide, oneLine_sentFields hname h, by simp +decide [h.awaitedText]⟩
  exact Code.oneLine_block.mpr ⟨by simp +decide [oneLine_clientSignature h],
    List.forall_mem_singleton.mpr hsend, by decide⟩

theorem oneLine_commentedMethod (hname : OneLine c.name) (h : op.OneLine) :
    ∀ l ∈ commentedMethod c op, l.OneLine := by
  have hsend : (Code.block "return transport.send(\x7b" (sentFields c op) "\x7d);").OneLine :=
    Code.oneLine_block.mpr ⟨by decide, oneLine_sentFields hname h, by decide⟩
  have hjoin := oneLine_join (by decide : OneLine ", ") (List.forall_mem_map.mpr h.parameterName)
  rw [commentedMethod, List.forall_mem_append, List.forall_mem_singleton]
  refine ⟨oneLine_docComment ?_, ?_⟩
  · rw [List.forall_mem_append, List.forall_mem_map, List.forall_mem_singleton]
    refine ⟨fun p hp => ?_, ?_⟩
    · simp +decide [h.parameterType p hp, h.parameterName p hp]
    · simp +decide [h.awaitedText]
  · exact Code.oneLine_block.mpr
      ⟨by simp +decide [h.name, ContractOperation.parameterNames, hjoin],
        List.forall_mem_singleton.mpr hsend, by decide⟩

theorem oneLine_syncOrAsync {awaited : String} (h : OneLine awaited) :
    OneLine (syncOrAsync awaited) := by
  unfold syncOrAsync
  split <;> simp +decide [h]

theorem oneLine_handlerSignature (h : op.OneLine) : OneLine (handlerSignature op) := by
  have hjoin := oneLine_join (by decide : OneLine ", ")
    (List.forall_mem_append.mpr ⟨oneLine_typedParameters h,
      List.forall_mem_singleton.mpr (by decide : OneLine "message?: IntentMessage")⟩)
  simp +decide [handlerSignature, h.name, hjoin, oneLine_syncOrAsync h.awaitedText]

theorem oneLine_handlerType (h : op.OneLine) : OneLine (handlerType op) := by
  have hjoin := oneLine_join (by decide : OneLine ", ")
    (List.forall_mem_append.mpr ⟨List.forall_mem_map.mpr h.parameterType,
      List.forall_mem_singleton.mpr (by decide : OneLine "IntentMessage=")⟩)
  simp +decide [handlerType, hjoin, oneLine_syncOrAsync h.awaitedText]

theorem oneLine_registration (hname : OneLine c.name) (h : op.OneLine) {message : String}
    (hmessage : OneLine message) {field : Parameter → String}
    (hfield : ∀ p ∈ op.parameters, OneLine (field p)) :
    (registration c message field op).OneLine := by
  have hjoin := oneLine_join (by decide : OneLine ", ")
    (List.forall_mem_append.mpr ⟨List.forall_mem_map.mpr hfield,
      List.forall_mem_singleton.mpr (by decide : OneLine "message")⟩)
  simp only [registration, handlerCall, Code.OneLine, Code.AllOneLine, Contract.registryName,
    oneLine_append, hname, h.name, hmessage, hjoin, true_and, and_true]
  and_intros <;> exact oneLine_ofList (by decide)

end Pieces

/-- What is the same in every module with type declarations. -/
theorem oneLine_messageTypes : ∀ l ∈ messageTypes, l.OneLine := by
  simp only [messageTypes, List.forall_mem_cons, List.not_mem_nil, IsEmpty.forall_iff,
    implies_true, Code.OneLine, Code.AllOneLine, true_and, and_true]
  and_intros <;> exact oneLine_ofList (by decide)

theorem oneLine_runtimeType : runtimeType.OneLine := by
  simp only [runtimeType, Code.OneLine, Code.AllOneLine, oneLine_append, and_true]
  and_intros <;> exact oneLine_ofList (by decide)

/-- What is the same in every module with types in comments. -/
theorem oneLine_messageComments : ∀ l ∈ messageComments, l.OneLine := by
  simp only [messageComments, docComment, List.map_cons, List.map_nil, List.cons_append,
    List.nil_append, List.forall_mem_cons, List.not_mem_nil, IsEmpty.forall_iff, implies_true,
    Code.OneLine, oneLine_append, true_and, and_true]
  and_intros <;> exact oneLine_ofList (by decide)

variable {c : Contract}

theorem oneLine_typedClient (h : c.WellFormed) : Code.AllOneLine (typedClient c) := by
  have hname := oneLine_of_isWord h.name
  have hop := fun op hop => (h.operations op hop).oneLine
  have hregistry : (typedRegistry c).OneLine := by
    refine Code.oneLine_block.mpr ⟨?_, List.forall_mem_map.mpr fun op ho => ?_, by decide⟩
    · simp +decide [Contract.registryName, hname]
    · simp +decide [Code.OneLine, registryEntry, (hop op ho).name, oneLine_literalOrNull]
  have htype : (clientType c).OneLine := by
    refine Code.oneLine_block.mpr ⟨?_, List.forall_mem_map.mpr fun op ho => ?_, by decide⟩
    · simp +decide [Contract.clientName, hname]
    · simp +decide [Code.OneLine, oneLine_clientSignature (hop op ho)]
  have hfactory : (typedFactory c).OneLine := by
    refine Code.oneLine_block.mpr ⟨?_, List.forall_mem_singleton.mpr ?_, by decide⟩
    · simp +decide [Contract.factoryName, Contract.clientName, hname]
    · exact Code.oneLine_block.mpr ⟨by decide,
        List.forall_mem_map.mpr fun op ho => oneLine_typedMethod hname (hop op ho), by decide⟩
  simp only [typedClient, Code.allOneLine_iff, List.forall_mem_append]
  refine ⟨⟨⟨⟨⟨oneLine_header hname _, oneLine_messageTypes⟩, oneLine_paragraph ?_⟩, ?_⟩,
    oneLine_paragraph ?_⟩, ?_⟩
  · refine List.forall_mem_map.mpr fun n hn => ?_
    have hn := oneLine_of_isWord (h.isWord_of_mem_referencedTypes _ hn)
    simp +decide [typePlaceholder, Code.OneLine, hn]
  · simp [hregistry, htype, Code.OneLine]
  · split <;> simp +decide [selfType, Code.OneLine, Contract.clientName, hname]
  · exact List.forall_mem_singleton.mpr hfactory

theorem oneLine_commentedClient (h : c.WellFormed) : Code.AllOneLine (commentedClient c) := by
  have hname := oneLine_of_isWord h.name
  have hop := fun op hop => (h.operations op hop).oneLine
  have hregistry : (frozenRegistry c).OneLine := by
    refine Code.oneLine_block.mpr ⟨?_, List.forall_mem_map.mpr fun op ho => ?_, by decide⟩
    · simp +decide [Contract.registryName, hname]
    · simp +decide [Code.OneLine, frozenEntry, (hop op ho).name, oneLine_literalOrNull]
  simp only [commentedClient, Code.allOneLine_iff, List.forall_mem_append]
  refine ⟨⟨⟨⟨⟨oneLine_header hname _, oneLine_messageComments⟩, oneLine_paragraph ?_⟩, ?_⟩, ?_⟩, ?_⟩
  · refine List.forall_mem_map.mpr fun n hn => ?_
    have hn := oneLine_of_isWord (h.isWord_of_mem_referencedTypes _ hn)
    simp +decide [commentPlaceholder, Code.OneLine, hn]
  · simp [hregistry, Code.OneLine]
  · rw [commentedFactory, List.forall_mem_append, List.forall_mem_singleton]
    refine ⟨oneLine_docComment (by decide), Code.oneLine_block.mpr ⟨?_, ?_, by decide⟩⟩
    · simp +decide [Contract.factoryName, hname]
    · exact List.forall_mem_singleton.mpr (Code.oneLine_block.mpr ⟨by decide,
        List.forall_mem_flatMap.mpr fun op ho => oneLine_commentedMethod hname (hop op ho),
        by decide⟩)
  · split <;> simp +decide [selfComment, Code.OneLine, Contract.factoryName, hname]

/-- The types that the handlers import have words as their names. -/
theorem isWord_of_mem_importedTypes (h : c.WellFormed) :
    ∀ n ∈ importedTypes c, isWord n = true := by
  rw [importedTypes, List.forall_mem_append, List.forall_mem_cons]
  refine ⟨⟨by decide, h.isWord_of_mem_referencedTypes⟩, ?_⟩
  split <;> simp [h.name]

theorem oneLine_of_mem_importedTypes (h : c.WellFormed) : ∀ n ∈ importedTypes c, OneLine n :=
  fun n hn => oneLine_of_isWord (isWord_of_mem_importedTypes h n hn)

theorem oneLine_typedHandlers (h : c.WellFormed) : Code.AllOneLine (typedHandlers c) := by
  have hname := oneLine_of_isWord h.name
  have hop := fun op hop => (h.operations op hop).oneLine
  have hjoin := oneLine_join (by decide : OneLine ", ") (oneLine_of_mem_importedTypes h)
  have htype : (handlersType c).OneLine :=
    Code.oneLine_block.mpr ⟨by simp +decide [Contract.handlersName, hname],
      List.forall_mem_map.mpr fun op ho => oneLine_handlerSignature (hop op ho), by decide⟩
  have hregistrar : (typedRegistrar c).OneLine := by
    refine Code.oneLine_block.mpr ⟨?_, List.forall_mem_map.mpr fun op ho => ?_, by decide⟩
    · simp +decide [Contract.registrarName, Contract.handlersName, hname]
    · refine oneLine_registration hname (hop op ho) (by decide) fun p hp => ?_
      simp +decide [payloadField, (hop op ho).parameterType p hp]
  simp only [typedHandlers, Code.allOneLine_iff, List.forall_mem_append]
  refine ⟨⟨oneLine_header hname _, ?_⟩, List.forall_mem_singleton.mpr hregistrar⟩
  simp only [List.forall_mem_cons, List.not_mem_nil, IsEmpty.forall_iff, implies_true, htype,
    registryImport, typeImport, oneLine_runtimeType, Code.OneLine, Contract.registryName,
    oneLine_append, oneLine_literal, hname, hjoin, true_and, and_true]
  and_intros <;> exact oneLine_ofList (by decide)

theorem oneLine_commentedHandlers (h : c.WellFormed) : Code.AllOneLine (commentedHandlers c) := by
  have hname := oneLine_of_isWord h.name
  have hop := fun op hop => (h.operations op hop).oneLine
  have hregistrar : (commentedRegistrar c).OneLine := by
    refine Code.oneLine_block.mpr ⟨?_, List.forall_mem_map.mpr fun op ho => ?_, by decide⟩
    · simp +decide [Contract.registrarName, hname]
    · exact oneLine_registration hname (hop op ho) (by decide) fun p _ => by
        simp +decide [payloadField]
  simp only [commentedHandlers, Code.allOneLine_iff, List.forall_mem_append]
  refine ⟨⟨⟨⟨⟨⟨⟨oneLine_header hname _, ?_⟩, ?_⟩, ?_⟩, oneLine_docComment ?_⟩, ?_⟩,
    oneLine_docComment ?_⟩, List.forall_mem_singleton.mpr hregistrar⟩
  · simp +decide [registryImport, Code.OneLine, Contract.registryName, hname]
  · refine List.forall_mem_map.mpr fun n hn => ?_
    simp +decide [commentImport, Code.OneLine, oneLine_of_mem_importedTypes h n hn]
  · simp [Code.OneLine]
  · rw [List.forall_mem_cons, List.forall_mem_map]
    refine ⟨by simp +decide [Contract.handlersName, hname], fun op ho => ?_⟩
    simp +decide [oneLine_handlerType (hop op ho), (hop op ho).name]
  · simp [Code.OneLine]
  · simp only [List.forall_mem_cons, List.not_mem_nil, IsEmpty.forall_iff, implies_true,
      Contract.handlersName, oneLine_append, hname, true_and, and_true]
    and_intros <;> exact oneLine_ofList (by decide)

/-- **The lines of a client module are those of its code.** -/
theorem lines_client (h : c.WellFormed) (flavor : Flavor) :
    Text.lines (c.generate flavor).client.text
      = Code.linesAllAt 0 (clientCode flavor c) ++ [[]] :=
  match flavor with
  | .typeScript => Code.lines_render (oneLine_typedClient h)
  | .javaScript => Code.lines_render (oneLine_commentedClient h)

/-- **The lines of a handler module are those of its code.** -/
theorem lines_handlers (h : c.WellFormed) (flavor : Flavor) :
    Text.lines (c.generate flavor).handlers.text
      = Code.linesAllAt 0 (handlersCode flavor c) ++ [[]] :=
  match flavor with
  | .typeScript => Code.lines_render (oneLine_typedHandlers h)
  | .javaScript => Code.lines_render (oneLine_commentedHandlers h)

end Generated

end IntentContract
