import IntentContract.Proofs.Generated.Lines
import IntentContract.Proofs.Text.Brackets

/-!
# Brackets and indentation of generated code

A line of generated code is put together from texts that are written out in the generator and from
what the contract brings: names, types, the hash, and literals. The former open and close brackets,
and leave some of them open for the lines to come. The latter never do: names and types have no
brackets, and those in a literal do not count. So whether the brackets are nested can be seen from
the texts that are written out, whatever the contract brings between them.

The indentation goes with the blocks. An emitter is told line by line what to write, and could take
back more steps than it made. The code says where each block ends, so here it does not: what is
rendered is what an emitter writes, from no indentation to none (`emitted_eq`). This holds of any
code, whatever its lines are. What the generated modules have of their own is that indentation and
brackets agree: a line begins a block just if it leaves a bracket open (`Emission.Fits`).

Together these say that generated modules are nested (`modules_nested`).
-/

namespace IntentContract

open Brackets

/-! ## Code -/

namespace Code

mutual

/-- **Code whose brackets are nested**: a line closes what it opens, and the closing line of a block
closes what the opening one left open, which is something. -/
def Nests : Code → Prop
  | .blank => True
  | .line text => Passes text [] []
  | .block opening body closing =>
    ∃ awaited ≠ [], Passes opening [] awaited ∧ AllNest body ∧ Passes closing awaited []

/-- Pieces of code whose brackets are nested. -/
def AllNest : List Code → Prop
  | [] => True
  | c :: rest => Nests c ∧ AllNest rest

end

theorem allNest_iff {code : List Code} : AllNest code ↔ ∀ c ∈ code, Nests c := by
  induction code with
  | nil => simp [AllNest]
  | cons c code ih => rw [AllNest, ih, List.forall_mem_cons]

theorem passes_lineText {text : String} {a b : List Char} (h : Passes text a b) (depth : Nat) :
    Passes (lineText depth text) a b := by
  have hbreak : Passes "\n" [] [] := passes_ofList rfl
  unfold lineText
  split
  · next hempty =>
    subst hempty
    exact h.level hbreak
  · have hblanks : Passes (String.ofList (List.replicate (2 * depth) ' ')) a a :=
      passes_ofList (steps_of_forall_not_mem_marks fun x hx => by
        rw [(List.mem_replicate.mp hx).2]
        decide)
    exact (hblanks.append h).level hbreak

mutual

theorem passes_renderAt (depth : Nat) {c : Code} (h : Nests c) :
    Passes (renderAt depth c) [] [] := by
  cases c with
  | blank => exact passes_ofList rfl
  | line text => exact passes_lineText h depth
  | block opening body closing =>
    obtain ⟨awaited, -, hopening, hbody, hclosing⟩ := h
    exact ((passes_lineText hopening depth).level (passes_renderAllAt (depth + 1) hbody)).append
      (passes_lineText hclosing depth)

theorem passes_renderAllAt (depth : Nat) {code : List Code} (h : AllNest code) :
    Passes (renderAllAt depth code) [] [] := by
  cases code with
  | nil => exact passes_ofList rfl
  | cons c rest => exact (passes_renderAt depth h.1).append (passes_renderAllAt depth h.2)

end

theorem nests_block {opening closing : String} {body : List Code} {first : Char}
    {awaited : List Char} (hopening : Passes opening [] (first :: awaited))
    (hbody : ∀ c ∈ body, Nests c) (hclosing : Passes closing (first :: awaited) []) :
    Nests (.block opening body closing) :=
  ⟨first :: awaited, List.cons_ne_nil _ _, hopening, allNest_iff.mpr hbody, hclosing⟩

/-- **The text of nested code has nested brackets.** -/
theorem nested_render {code : List Code} (h : ∀ c ∈ code, Nests c) : Nested (render code) :=
  (passes_renderAllAt 0 (allNest_iff.mpr h)).nested

/-! ## Emitting -/

/-- What an emitter is told: a line by itself, or one that begins or ends a block. -/
inductive Emission where
  | line (text : String)
  | opening (text : String)
  | closing (text : String)

/-- **An emitter**: the text so far, and the indentation of the next line in steps of two blanks. -/
structure Emitter where
  text : String
  depth : Nat

/-- **One emission.** Behind an opening line the indentation grows. It shrinks in front of a closing
line, and there is none to take away outside of all blocks. -/
def Emitter.emit (e : Emitter) : Emission → Option Emitter
  | .line text => some ⟨e.text ++ lineText e.depth text, e.depth⟩
  | .opening text => some ⟨e.text ++ lineText e.depth text, e.depth + 1⟩
  | .closing text =>
    match e.depth with
    | 0 => none
    | depth + 1 => some ⟨e.text ++ lineText depth text, depth⟩

mutual

/-- What an emitter is told to write a piece of code. -/
def emissions : Code → List Emission
  | .blank => [.line ""]
  | .line text => [.line text]
  | .block opening body closing => .opening opening :: (allEmissions body ++ [.closing closing])

/-- What an emitter is told to write pieces of code. -/
def allEmissions : List Code → List Emission
  | [] => []
  | c :: rest => emissions c ++ allEmissions rest

end

/-- **An emission that agrees with its brackets**: a line by itself closes what it opens, one that
begins a block leaves some bracket open, and one that ends a block closes what is open. -/
def Emission.Fits : Emission → Prop
  | .line text => Passes text [] []
  | .opening text => ∃ awaited ≠ [], Passes text [] awaited
  | .closing text => ∃ awaited ≠ [], Passes text awaited []

mutual

theorem fits_of_nests {c : Code} (h : Nests c) : ∀ e ∈ emissions c, e.Fits := by
  cases c with
  | blank => exact List.forall_mem_singleton.mpr (passes_ofList rfl)
  | line text => exact List.forall_mem_singleton.mpr h
  | block opening body closing =>
    obtain ⟨awaited, hne, hopening, hbody, hclosing⟩ := h
    rw [emissions, List.forall_mem_cons, List.forall_mem_append, List.forall_mem_singleton]
    exact ⟨⟨awaited, hne, hopening⟩, fits_of_allNest hbody, ⟨awaited, hne, hclosing⟩⟩

theorem fits_of_allNest {code : List Code} (h : AllNest code) :
    ∀ e ∈ allEmissions code, e.Fits := by
  cases code with
  | nil => exact List.forall_mem_nil _
  | cons c rest => exact List.forall_mem_append.mpr ⟨fits_of_nests h.1, fits_of_allNest h.2⟩

end

/-- **An emitter run from the beginning**; none if the indentation underflows. -/
def emitted (code : List Code) : Option Emitter :=
  (allEmissions code).foldlM Emitter.emit ⟨"", 0⟩

mutual

/-- A piece of code is written at the depth of the emitter, and leaves it there. -/
theorem foldlM_emissions (e : Emitter) (c : Code) :
    (emissions c).foldlM Emitter.emit e = some ⟨e.text ++ renderAt e.depth c, e.depth⟩ := by
  cases c with
  | blank => rfl
  | line text => rfl
  | block opening body closing =>
    rw [emissions, List.foldlM_cons, Emitter.emit, Option.bind_eq_bind, Option.bind_some,
      List.foldlM_append, foldlM_allEmissions _ body, renderAt, ← String.append_assoc,
      ← String.append_assoc]
    rfl

theorem foldlM_allEmissions (e : Emitter) (code : List Code) :
    (allEmissions code).foldlM Emitter.emit e
      = some ⟨e.text ++ renderAllAt e.depth code, e.depth⟩ := by
  cases code with
  | nil => rw [renderAllAt, String.append_empty]; rfl
  | cons c rest =>
    rw [allEmissions, List.foldlM_append, foldlM_emissions e c, Option.bind_eq_bind,
      Option.bind_some, foldlM_allEmissions _ rest, renderAllAt, ← String.append_assoc]

end

/-- **Rendering is what an emitter writes**, and its indentation ends where it began. -/
theorem emitted_eq (code : List Code) : emitted code = some ⟨render code, 0⟩ := by
  rw [emitted, foldlM_allEmissions, String.empty_append, render]

end Code

/-! ## What the modules are made of -/

theorem passes_of_isWord {n : String} (h : isWord n = true) : Passes n [] [] :=
  passes_of_forall (p := Scan.isWordPart) (by decide) (isWordPart_of_isWord h)

theorem TypeDescriptor.WellFormed.passes_text {d : TypeDescriptor} (h : d.WellFormed .parsed) :
    Passes d.text [] [] :=
  passes_of_forall (by decide) h.isTypeChar_text

theorem TypeDescriptor.WellFormed.passes_awaitedText {d : TypeDescriptor}
    (h : d.WellFormed .parsed) : Passes d.awaitedText [] [] :=
  passes_of_forall (by decide) h.isTypeChar_awaitedText

theorem Contract.passes_hash (c : Contract) : Passes c.hash [] [] :=
  passes_of_forall (p := fun x => (Text.hexValue? x).isSome) (by decide) fun _ hx =>
    hexValue?_of_mem_hash hx

/-- What stands in the lines about an operation. -/
structure ContractOperation.Level (op : ContractOperation) : Prop where
  name : Passes op.name [] []
  parameterName : ∀ p ∈ op.parameters, Passes p.name [] []
  parameterType : ∀ p ∈ op.parameters, Passes p.type.text [] []
  awaitedText : Passes op.awaitedText [] []

theorem ContractOperation.WellFormed.level {op : ContractOperation} (h : op.WellFormed) :
    op.Level where
  name := passes_of_isWord h.name
  parameterName p hp := passes_of_isWord (h.parameters p hp).name
  parameterType p hp := (h.parameters p hp).type.passes_text
  awaitedText := by
    obtain ⟨d, hd, hwf⟩ := h.returns
    rw [ContractOperation.awaitedText, hd]
    exact hwf.passes_awaitedText

/-! ## The modules -/

namespace Generated

open Code

section Pieces

/-! The proofs follow the texts from left to right: `text` goes on with a text that is written out,
`level` with a piece that the contract brings. -/

variable {c : Contract} {op : ContractOperation}

theorem passes_comma : Passes ", " [] [] :=
  passes_ofList rfl

theorem nests_header (hname : Passes c.name [] []) (kind : ModuleKind) :
    ∀ l ∈ header c kind, l.Nests := by
  have hkind : Passes kind.name [] [] := by cases kind <;> exact passes_ofList rfl
  have hfirst : Passes ("// Generated by agentidl from interface " ++ c.name ++ " (" ++ kind.name
      ++ "). Do not edit.") [] [] :=
    .text (.level (.text (.level (passes_ofList rfl) hname) rfl) hkind) rfl
  have hsecond : Passes ("// model sha256:" ++ c.hash) [] [] :=
    .level (passes_ofList rfl) c.passes_hash
  simp only [header, List.forall_mem_cons, List.not_mem_nil, IsEmpty.forall_iff, implies_true,
    and_true]
  exact ⟨hfirst, hsecond, trivial⟩

theorem nests_paragraph {code : List Code} (h : ∀ l ∈ code, l.Nests) :
    ∀ l ∈ paragraph code, l.Nests := by
  unfold paragraph
  split
  · exact List.forall_mem_nil _
  · exact List.forall_mem_append.mpr ⟨h, List.forall_mem_singleton.mpr trivial⟩

theorem nests_docComment {texts : List String} (h : ∀ s ∈ texts, Passes s [] []) :
    ∀ l ∈ docComment texts, l.Nests := by
  have hopening : Nests (.line "/**") := passes_ofList rfl
  have hclosing : Nests (.line " */") := passes_ofList rfl
  rw [docComment, List.forall_mem_append, List.forall_mem_cons, List.forall_mem_map,
    List.forall_mem_singleton]
  exact ⟨⟨hopening, fun s hs => .level (passes_ofList rfl) (h s hs)⟩, hclosing⟩

theorem passes_literalOrNull (value : Option String) : Passes (literalOrNull value) [] [] := by
  cases value with
  | none => exact passes_ofList rfl
  | some s => exact passes_literal s

theorem passes_registryName (hname : Passes c.name [] []) : Passes c.registryName [] [] :=
  .text hname rfl

theorem passes_parameterNames (h : op.Level) :
    Passes (Text.join ", " op.parameterNames) [] [] :=
  passes_join passes_comma (List.forall_mem_map.mpr h.parameterName)

theorem passes_typedParameters (h : op.Level) :
    ∀ s ∈ op.parameters.map typedParameter, Passes s [] [] :=
  List.forall_mem_map.mpr fun p hp =>
    .level (.text (h.parameterName p hp) rfl) (h.parameterType p hp)

theorem passes_payloadLiteral (h : op.Level) : Passes (payloadLiteral op) [] [] := by
  unfold payloadLiteral
  split
  · exact passes_ofList rfl
  · exact .text (.level (passes_ofList rfl) (passes_parameterNames h)) rfl

theorem nests_sentFields (hname : Passes c.name [] []) (h : op.Level) :
    ∀ l ∈ sentFields c op, l.Nests := by
  have hregistry := passes_registryName hname
  have hintent : Passes ("intent: " ++ c.registryName ++ "." ++ op.name ++ ".intent,") [] [] :=
    .text (.level (.text (.level (passes_ofList rfl) hregistry) rfl) h.name) rfl
  have hproof : Passes ("proof: " ++ c.registryName ++ "." ++ op.name ++ ".proof,") [] [] :=
    .text (.level (.text (.level (passes_ofList rfl) hregistry) rfl) h.name) rfl
  have hpayload : Passes ("payload: " ++ payloadLiteral op ++ ",") [] [] :=
    .text (.level (passes_ofList rfl) (passes_payloadLiteral h)) rfl
  simp only [sentFields, List.forall_mem_cons, List.not_mem_nil, IsEmpty.forall_iff, implies_true,
    and_true]
  exact ⟨hintent, hproof, hpayload⟩

theorem passes_clientSignature (h : op.Level) : Passes (clientSignature op) [] [] :=
  .text (.level (.text (.level (.text h.name rfl)
    (passes_join passes_comma (passes_typedParameters h))) rfl) h.awaitedText) rfl

theorem passes_registryEntry (h : op.Level) : Passes (registryEntry op) [] [] :=
  .text (.level (.text (.level (.text h.name rfl) (passes_literal _)) rfl)
    (passes_literalOrNull _)) rfl

theorem passes_frozenEntry (h : op.Level) : Passes (frozenEntry op) [] [] :=
  .text (.level (.text (.level (.text h.name rfl) (passes_literal _)) rfl)
    (passes_literalOrNull _)) rfl

theorem nests_typedMethod (hname : Passes c.name [] []) (h : op.Level) :
    (typedMethod c op).Nests := by
  have hsend : Nests (.block "return transport.send(\x7b" (sentFields c op)
      ("\x7d) as Promise<" ++ op.awaitedText ++ ">;")) :=
    nests_block (passes_ofList rfl) (nests_sentFields hname h)
      (.text (.level (passes_ofList rfl) h.awaitedText) rfl)
  exact nests_block (.text (passes_clientSignature h) rfl) (List.forall_mem_singleton.mpr hsend)
    (passes_ofList rfl)

theorem nests_commentedMethod (hname : Passes c.name [] []) (h : op.Level) :
    ∀ l ∈ commentedMethod c op, l.Nests := by
  have hsend : Nests (.block "return transport.send(\x7b" (sentFields c op) "\x7d);") :=
    nests_block (passes_ofList rfl) (nests_sentFields hname h) (passes_ofList rfl)
  rw [commentedMethod, List.forall_mem_append, List.forall_mem_singleton]
  refine ⟨nests_docComment ?_, ?_⟩
  · rw [List.forall_mem_append, List.forall_mem_map, List.forall_mem_singleton]
    exact ⟨fun p hp => .level (.text (.level (passes_ofList rfl) (h.parameterType p hp)) rfl)
      (h.parameterName p hp), .text (.level (passes_ofList rfl) h.awaitedText) rfl⟩
  · exact nests_block (.text (.level (.text h.name rfl) (passes_parameterNames h)) rfl)
      (List.forall_mem_singleton.mpr hsend) (passes_ofList rfl)

theorem passes_syncOrAsync {awaited : String} (h : Passes awaited [] []) :
    Passes (syncOrAsync awaited) [] [] := by
  unfold syncOrAsync
  refine .text (.level (.text ?_ rfl) h) rfl
  split
  · exact .text (.level (passes_ofList rfl) h) rfl
  · exact h

theorem passes_handlerSignature (h : op.Level) : Passes (handlerSignature op) [] [] := by
  have hparameters := passes_join passes_comma (List.forall_mem_append.mpr
    ⟨passes_typedParameters h, List.forall_mem_singleton.mpr
      (passes_ofList rfl : Passes "message?: IntentMessage" [] [])⟩)
  exact .text (.level (.text (.level (.text h.name rfl) hparameters) rfl)
    (passes_syncOrAsync h.awaitedText)) rfl

theorem passes_handlerType (h : op.Level) : Passes (handlerType op) [] [] := by
  have htypes := passes_join passes_comma (List.forall_mem_append.mpr
    ⟨List.forall_mem_map.mpr h.parameterType, List.forall_mem_singleton.mpr
      (passes_ofList rfl : Passes "IntentMessage=" [] [])⟩)
  exact .text (.level (.text (.level (passes_ofList rfl) htypes) rfl)
    (passes_syncOrAsync h.awaitedText)) rfl

theorem passes_payloadField (p : Parameter) : Passes (payloadField p) [] [] :=
  .text (.level (passes_ofList rfl) (passes_literal _)) rfl

theorem nests_registration (hname : Passes c.name [] []) (h : op.Level) {message : String}
    (hmessage : Passes message [] []) {field : Parameter → String}
    (hfield : ∀ p ∈ op.parameters, Passes (field p) [] []) :
    (registration c message field op).Nests := by
  have harguments := passes_join passes_comma (List.forall_mem_append.mpr
    ⟨List.forall_mem_map.mpr hfield, List.forall_mem_singleton.mpr
      (passes_ofList rfl : Passes "message" [] [])⟩)
  have hpayload : Nests (.line "const payload = message.payload ?? \x7b\x7d;") :=
    passes_ofList rfl
  have hcall : Nests (.line ("return handlers." ++ op.name ++ "("
      ++ Text.join ", " (op.parameters.map field ++ ["message"]) ++ ");")) :=
    .text (.level (.text (.level (passes_ofList rfl) h.name) rfl) harguments) rfl
  have hopening : Passes ("runtime.registerIntent(" ++ c.registryName ++ "." ++ op.name
      ++ ".intent, (" ++ message ++ ") => \x7b") [] ['\x7d', ')'] :=
    .text (.level (.text (.level (.text (.level (passes_ofList rfl) (passes_registryName hname))
      rfl) h.name) rfl) hmessage) rfl
  refine nests_block hopening ?_ (passes_ofList rfl)
  simp only [handlerCall, List.forall_mem_cons, List.not_mem_nil, IsEmpty.forall_iff,
    implies_true, and_true]
  exact ⟨hpayload, hcall⟩

end Pieces

/-- What is the same in every module with type declarations. -/
theorem nests_messageTypes : ∀ l ∈ messageTypes, l.Nests := by
  simp only [messageTypes, List.forall_mem_cons, List.not_mem_nil, IsEmpty.forall_iff,
    implies_true, and_true]
  refine ⟨nests_block (passes_ofList rfl) ?_ (passes_ofList rfl), trivial,
    nests_block (passes_ofList rfl) ?_ (passes_ofList rfl), trivial⟩
  · simp only [List.forall_mem_cons, List.not_mem_nil, IsEmpty.forall_iff, implies_true, and_true]
    exact ⟨passes_ofList rfl, passes_ofList rfl, passes_ofList rfl, passes_ofList rfl,
      passes_ofList rfl, passes_ofList rfl⟩
  · exact List.forall_mem_singleton.mpr (passes_ofList rfl)

theorem nests_runtimeType : runtimeType.Nests :=
  nests_block (passes_ofList rfl)
    (List.forall_mem_singleton.mpr (.text (passes_ofList rfl) rfl)) (passes_ofList rfl)

/-- What is the same in every module with types in comments. -/
theorem nests_messageComments : ∀ l ∈ messageComments, l.Nests := by
  simp only [messageComments, List.forall_mem_append, List.forall_mem_singleton]
  refine ⟨⟨⟨nests_docComment ?_, trivial⟩, nests_docComment ?_⟩, trivial⟩
  · simp only [List.forall_mem_cons, List.not_mem_nil, IsEmpty.forall_iff, implies_true, and_true]
    exact ⟨passes_ofList rfl, passes_ofList rfl, passes_ofList rfl, passes_ofList rfl,
      passes_ofList rfl, passes_ofList rfl, passes_ofList rfl⟩
  · simp only [List.forall_mem_cons, List.not_mem_nil, IsEmpty.forall_iff, implies_true, and_true]
    exact ⟨passes_ofList rfl, passes_ofList rfl⟩

variable {c : Contract}

theorem nests_typedClient (h : c.WellFormed) : ∀ l ∈ typedClient c, l.Nests := by
  have hname := passes_of_isWord h.name
  have hop := fun op hop => (h.operations op hop).level
  have hclient : Passes c.clientName [] [] := .text hname rfl
  have hfactoryName : Passes c.factoryName [] [] := .text (.level (passes_ofList rfl) hname) rfl
  have hregistry : (typedRegistry c).Nests :=
    nests_block (.text (.level (passes_ofList rfl) (passes_registryName hname)) rfl)
      (List.forall_mem_map.mpr fun op ho => passes_registryEntry (hop op ho)) (passes_ofList rfl)
  have htype : (clientType c).Nests :=
    nests_block (.text (.level (passes_ofList rfl) hclient) rfl)
      (List.forall_mem_map.mpr fun op ho => .text (passes_clientSignature (hop op ho)) rfl)
      (passes_ofList rfl)
  have hmethods : Nests (.block "return \x7b" (c.operations.map (typedMethod c)) "\x7d;") :=
    nests_block (passes_ofList rfl)
      (List.forall_mem_map.mpr fun op ho => nests_typedMethod hname (hop op ho))
      (passes_ofList rfl)
  have hfactory : (typedFactory c).Nests :=
    nests_block (.text (.level (.text (.level (passes_ofList rfl) hfactoryName) rfl) hclient) rfl)
      (List.forall_mem_singleton.mpr hmethods) (passes_ofList rfl)
  simp only [typedClient, List.forall_mem_append]
  refine ⟨⟨⟨⟨⟨nests_header hname _, nests_messageTypes⟩, nests_paragraph ?_⟩, ?_⟩,
    nests_paragraph ?_⟩, List.forall_mem_singleton.mpr hfactory⟩
  · refine List.forall_mem_map.mpr fun n hn => ?_
    exact .text (.level (passes_ofList rfl)
      (passes_of_isWord (h.isWord_of_mem_referencedTypes n hn))) rfl
  · simp only [List.forall_mem_cons, List.not_mem_nil, IsEmpty.forall_iff, implies_true, and_true]
    exact ⟨hregistry, trivial, htype, trivial⟩
  · split
    · exact List.forall_mem_singleton.mpr
        (.text (.level (.text (.level (passes_ofList rfl) hname) rfl) hclient) rfl)
    · exact List.forall_mem_nil _

theorem nests_commentedClient (h : c.WellFormed) : ∀ l ∈ commentedClient c, l.Nests := by
  have hname := passes_of_isWord h.name
  have hop := fun op hop => (h.operations op hop).level
  have hfactoryName : Passes c.factoryName [] [] := .text (.level (passes_ofList rfl) hname) rfl
  have hregistry : (frozenRegistry c).Nests :=
    nests_block (.text (.level (passes_ofList rfl) (passes_registryName hname)) rfl)
      (List.forall_mem_map.mpr fun op ho => passes_frozenEntry (hop op ho)) (passes_ofList rfl)
  have hmethods : Nests (.block "return \x7b" (c.operations.flatMap (commentedMethod c)) "\x7d;") :=
    nests_block (passes_ofList rfl)
      (List.forall_mem_flatMap.mpr fun op ho => nests_commentedMethod hname (hop op ho))
      (passes_ofList rfl)
  have hfactory : ∀ l ∈ commentedFactory c, l.Nests := by
    rw [commentedFactory, List.forall_mem_append, List.forall_mem_singleton]
    exact ⟨nests_docComment (List.forall_mem_singleton.mpr (passes_ofList rfl)),
      nests_block (.text (.level (passes_ofList rfl) hfactoryName) rfl)
        (List.forall_mem_singleton.mpr hmethods) (passes_ofList rfl)⟩
  simp only [commentedClient, List.forall_mem_append]
  refine ⟨⟨⟨⟨⟨nests_header hname _, nests_messageComments⟩, nests_paragraph ?_⟩, ?_⟩, hfactory⟩, ?_⟩
  · refine List.forall_mem_map.mpr fun n hn => ?_
    exact .text (.level (passes_ofList rfl)
      (passes_of_isWord (h.isWord_of_mem_referencedTypes n hn))) rfl
  · simp only [List.forall_mem_cons, List.not_mem_nil, IsEmpty.forall_iff, implies_true, and_true]
    exact ⟨hregistry, trivial⟩
  · split
    · simp only [List.forall_mem_cons, List.not_mem_nil, IsEmpty.forall_iff, implies_true,
        and_true]
      exact ⟨trivial,
        .text (.level (.text (.level (passes_ofList rfl) hfactoryName) rfl) hname) rfl⟩
    · exact List.forall_mem_nil _

theorem nests_typedHandlers (h : c.WellFormed) : ∀ l ∈ typedHandlers c, l.Nests := by
  have hname := passes_of_isWord h.name
  have hop := fun op hop => (h.operations op hop).level
  have hhandlers : Passes c.handlersName [] [] := .text hname rfl
  have hregistrarName : Passes c.registrarName [] [] :=
    .text (.level (passes_ofList rfl) hname) rfl
  have himported := passes_join passes_comma fun n hn =>
    passes_of_isWord (isWord_of_mem_importedTypes h n hn)
  have hregistryImport : (registryImport c .typeScript).Nests :=
    .text (.level (.text (.level (passes_ofList rfl) (passes_registryName hname)) rfl)
      (passes_literal _)) rfl
  have htypeImport : (typeImport c).Nests :=
    .text (.level (.text (.level (passes_ofList rfl) himported) rfl) (passes_literal _)) rfl
  have htype : (handlersType c).Nests :=
    nests_block (.text (.level (passes_ofList rfl) hhandlers) rfl)
      (List.forall_mem_map.mpr fun op ho => passes_handlerSignature (hop op ho))
      (passes_ofList rfl)
  have hregistrar : (typedRegistrar c).Nests := by
    refine nests_block (.text (.level (.text (.level (passes_ofList rfl) hregistrarName) rfl)
      hhandlers) rfl) (List.forall_mem_map.mpr fun op ho => ?_) (passes_ofList rfl)
    exact nests_registration hname (hop op ho) (passes_ofList rfl) fun p hp =>
      .level (.text (passes_payloadField p) rfl) ((hop op ho).parameterType p hp)
  simp only [typedHandlers, List.forall_mem_append, List.forall_mem_cons, List.not_mem_nil,
    IsEmpty.forall_iff, implies_true, and_true]
  exact ⟨⟨nests_header hname _, hregistryImport, htypeImport, trivial, nests_runtimeType, trivial,
    htype, trivial⟩, hregistrar⟩

set_option maxRecDepth 1024 in
theorem nests_commentedHandlers (h : c.WellFormed) : ∀ l ∈ commentedHandlers c, l.Nests := by
  have hname := passes_of_isWord h.name
  have hop := fun op hop => (h.operations op hop).level
  have hhandlers : Passes c.handlersName [] [] := .text hname rfl
  have hregistrarName : Passes c.registrarName [] [] :=
    .text (.level (passes_ofList rfl) hname) rfl
  have hregistryImport : (registryImport c .javaScript).Nests :=
    .text (.level (.text (.level (passes_ofList rfl) (passes_registryName hname)) rfl)
      (passes_literal _)) rfl
  have himports : ∀ l ∈ (importedTypes c).map (commentImport c), l.Nests :=
    List.forall_mem_map.mpr fun n hn =>
      have hn := passes_of_isWord (isWord_of_mem_importedTypes h n hn)
      .text (.level (.text (.level (.text (.level (passes_ofList rfl) (passes_literal _)) rfl) hn)
        rfl) hn) rfl
  have htype : ∀ l ∈ handlersComment c, l.Nests := by
    refine nests_docComment (List.forall_mem_cons.mpr ⟨.level (passes_ofList rfl) hhandlers, ?_⟩)
    exact List.forall_mem_map.mpr fun op ho =>
      .level (.text (.level (passes_ofList rfl) (passes_handlerType (hop op ho))) rfl)
        (hop op ho).name
  have hregistrarType : ∀ l ∈ registrarComment c, l.Nests := by
    refine nests_docComment ?_
    simp only [List.forall_mem_cons, List.not_mem_nil, IsEmpty.forall_iff, implies_true, and_true]
    exact ⟨.text (passes_ofList rfl) rfl, .text (.level (passes_ofList rfl) hhandlers) rfl⟩
  have hregistrar : (commentedRegistrar c).Nests :=
    nests_block (.text (.level (passes_ofList rfl) hregistrarName) rfl)
      (List.forall_mem_map.mpr fun op ho => nests_registration hname (hop op ho)
        (passes_ofList rfl) fun p _ => passes_payloadField p)
      (passes_ofList rfl)
  simp only [commentedHandlers, List.forall_mem_append, List.forall_mem_cons, List.not_mem_nil,
    IsEmpty.forall_iff, implies_true, and_true]
  exact ⟨⟨⟨⟨⟨⟨⟨nests_header hname _, hregistryImport, trivial⟩, himports⟩, trivial⟩, htype⟩,
    trivial⟩, hregistrarType⟩, hregistrar⟩

/-- **The code of both modules is nested.** -/
theorem nests_modules (h : c.WellFormed) (flavor : Flavor) :
    (∀ l ∈ clientCode flavor c, l.Nests) ∧ ∀ l ∈ handlersCode flavor c, l.Nests :=
  match flavor with
  | .typeScript => ⟨nests_typedClient h, nests_typedHandlers h⟩
  | .javaScript => ⟨nests_commentedClient h, nests_commentedHandlers h⟩

/-- **The generated modules are nested**: in both modules every bracket outside of a literal fits
and none is left open, and writing them takes the emitter's indentation back to zero without ever
going below. The latter is so of any code, and here the indentation grows just where a line leaves
a bracket open. -/
theorem modules_nested {source : String} (h : Contract.ofSource source = .ok c)
    (flavor : Flavor) :
    Nested (c.generate flavor).client.text ∧ Nested (c.generate flavor).handlers.text
      ∧ (∀ e ∈ allEmissions (clientCode flavor c), e.Fits)
      ∧ (∀ e ∈ allEmissions (handlersCode flavor c), e.Fits)
      ∧ emitted (clientCode flavor c) = some ⟨(c.generate flavor).client.text, 0⟩
      ∧ emitted (handlersCode flavor c) = some ⟨(c.generate flavor).handlers.text, 0⟩ := by
  obtain ⟨hclient, hhandlers⟩ := nests_modules (Contract.wellFormed_of_ofSource h) flavor
  exact ⟨nested_render hclient, nested_render hhandlers, fits_of_allNest (allNest_iff.mpr hclient),
    fits_of_allNest (allNest_iff.mpr hhandlers), emitted_eq _, emitted_eq _⟩

set_option maxRecDepth 2048 in
/-- An intent with brackets that do not fit and a backslash at its end, and a result of more than
one type. -/
theorem modules_nested_unfitting :
    ∃ c, Contract.ofSource ("interface P \x7b [Intent=\"\x7d](\\\", Proof=\"\x7b\"]"
          ++ " Promise<(A or P)> f(sequence<A> x); \x7d;") = .ok c
      ∧ Nested (c.generate .javaScript).client.text
      ∧ Nested (c.generate .javaScript).handlers.text
      ∧ (∀ e ∈ allEmissions (clientCode .javaScript c), e.Fits)
      ∧ (∀ e ∈ allEmissions (handlersCode .javaScript c), e.Fits)
      ∧ emitted (clientCode .javaScript c) = some ⟨(c.generate .javaScript).client.text, 0⟩
      ∧ emitted (handlersCode .javaScript c)
        = some ⟨(c.generate .javaScript).handlers.text, 0⟩ := by
  have hsource : Contract.ofSource ("interface P \x7b [Intent=\"\x7d](\\\", Proof=\"\x7b\"]"
        ++ " Promise<(A or P)> f(sequence<A> x); \x7d;")
      = .ok ⟨"P", none, none, [⟨"f", [⟨"x", .generic "sequence" [.primitive "A"]⟩],
        some (.generic "Promise" [.union [.primitive "A", .primitive "P"]]),
        ⟨none, none, some "\x7d](\\", some "\x7b", false, none⟩⟩]⟩ := by
    with_unfolding_all rfl
  exact ⟨_, hsource, modules_nested hsource .javaScript⟩

end Generated

end IntentContract
