import IntentContract.Proofs.Generated.Registry
import IntentContract.Proofs.Generated.Traceability

/-!
# The names that a client module declares

A typed client module declares names from three sources. Two are fixed, those of messages and of
what sends them. Some are made from the contract's name: the registry, the client, the function
that makes one, and the contract's own name where a signature uses it. The others are the custom
types, which come from the signatures and are declared as **placeholders**.

The names of the first two sources are pairwise distinct, and so are the custom types. But nothing
keeps a custom type from having one of the other names. So a module declares each name once just if
no custom type has a **reserved** name (`nodup_declared_iff`). And of the names that the target has
itself, custom types avoid all but two, `number` and `string` (`redeclares_iff`).

The declarations are read off the text. They begin at the margin, so the lines inside a block
declare nothing (`filterMap_linesAllAt`).
-/

namespace IntentContract.Generated

open Text Code

/-! ## Reading declarations -/

/-- What a declaration begins with. -/
def declarationStarts : List String :=
  ["export interface ", "export type ", "export const ", "export function "]

/-- **The declaration that a line begins**: a name, and what stands behind it. -/
def declarationOn? (line : List Char) : Option (String × String) :=
  (declarationStarts.findSome? fun start => line.dropPrefix? start.toList).map fun rest =>
    (String.ofList (rest.takeWhile Scan.isWordPart), String.ofList (rest.dropWhile Scan.isWordPart))

/-- The declarations in the text of a module, in order. -/
def declarationsIn (text : String) : List (String × String) :=
  (lines text).filterMap declarationOn?

/-- **The names that a module declares.** -/
def declaredNames (text : String) : List String :=
  (declarationsIn text).map Prod.fst

/-- What stands behind the name of a placeholder. -/
def placeholderEnd : String :=
  " = Record<string, unknown>;"

/-- **The names that a module declares as placeholders.** -/
def placeholderNames (text : String) : List String :=
  ((declarationsIn text).filter fun d => d.2 = placeholderEnd).map Prod.fst

/-- The names of types that the target has itself. -/
def targetNames : List String :=
  TypeDescriptor.builtinNames ++ ["boolean", "number", "string"]

/-- **The names that a client module of a contract declares in any case.** -/
def reservedNames (c : Contract) : List String :=
  ["IntentMessage", "IntentTransport", c.registryName, c.clientName, c.factoryName]

/-! ## Lines at the margin -/

mutual

/-- Code inside a block does not begin at the margin. -/
theorem head?_of_mem_linesAt {c : Char} (hc : c ≠ ' ') (depth : Nat) (code : Code) :
    ∀ l ∈ linesAt (depth + 1) code, l.head? ≠ some c := by
  cases code with
  | blank => simp [linesAt]
  | line text => simpa [linesAt] using head?_lineChars_succ depth text hc
  | block opening body closing =>
    rw [linesAt, List.forall_mem_cons, List.forall_mem_append, List.forall_mem_singleton]
    exact ⟨head?_lineChars_succ depth opening hc, head?_of_mem_linesAllAt hc (depth + 1) body,
      head?_lineChars_succ depth closing hc⟩

theorem head?_of_mem_linesAllAt {c : Char} (hc : c ≠ ' ') (depth : Nat) (code : List Code) :
    ∀ l ∈ linesAllAt (depth + 1) code, l.head? ≠ some c := by
  cases code with
  | nil => exact List.forall_mem_nil _
  | cons piece rest =>
    rw [linesAllAt, List.forall_mem_append]
    exact ⟨head?_of_mem_linesAt hc depth piece, head?_of_mem_linesAllAt hc depth rest⟩

end

/-- A reader that finds something only on lines with a given first character. -/
def FindsBehind {α : Type} (read : List Char → Option α) (first : Char) : Prop :=
  ∀ l : List Char, l.head? ≠ some first → read l = none

/-- **What a reader finds on a piece of code**, on its lines at the margin. -/
def atMargin {α : Type} (read : List Char → Option α) : Code → List α
  | .blank => []
  | .line text => (read text.toList).toList
  | .block opening _ closing => (read opening.toList).toList ++ (read closing.toList).toList

@[simp] theorem atMargin_blank {α : Type} (read : List Char → Option α) :
    atMargin read .blank = [] :=
  rfl

/-- **What is found on the lines of code is found on its pieces**, by a reader that keeps to the
margin. -/
theorem FindsBehind.filterMap_linesAllAt {α : Type} {read : List Char → Option α} {first : Char}
    (h : FindsBehind read first) (hfirst : first ≠ ' ') (code : List Code) :
    (linesAllAt 0 code).filterMap read = code.flatMap (atMargin read) := by
  have hbody : ∀ body, (linesAllAt 1 body).filterMap read = [] := fun body =>
    List.filterMap_eq_nil_iff.mpr fun l hl => h l (head?_of_mem_linesAllAt hfirst 0 body l hl)
  have hline : ∀ l, [l].filterMap read = (read l).toList := fun l => by
    cases hl : read l <;> simp [hl]
  rw [linesAllAt_eq_flatMap, List.filterMap_flatMap]
  refine List.flatMap_congr fun piece _ => ?_
  cases piece with
  | blank => rw [linesAt, hline, h [] nofun, atMargin, Option.toList_none]
  | line text => rw [linesAt, lineChars_zero, hline, atMargin]
  | block opening body closing =>
    rw [linesAt, ← List.singleton_append, List.filterMap_append, List.filterMap_append, hbody,
      lineChars_zero, lineChars_zero, hline, hline, atMargin, List.nil_append]

theorem flatMap_atMargin_paragraph {α : Type} (read : List Char → Option α) (code : List Code) :
    (paragraph code).flatMap (atMargin read) = code.flatMap (atMargin read) := by
  unfold paragraph
  split
  · next h => rw [List.isEmpty_iff.mp h]
  · rw [List.flatMap_append, List.flatMap_singleton]
    exact List.append_nil _

/-- A text does not begin in a given way if its first character is another. -/
theorem dropPrefix?_of_head? {l : List Char} {c : Char} (h : l.head? ≠ some c)
    (rest : List Char) : l.dropPrefix? (c :: rest) = none := by
  cases l with
  | nil => rfl
  | cons d ds =>
    have hne : (d == c) = false := beq_false_of_ne fun heq => h (congrArg some heq)
    rw [List.dropPrefix?, hne]
    rfl

/-- A line that does not begin at the margin declares nothing. -/
theorem declarationOn?_of_head? {l : List Char} (h : l.head? ≠ some 'e') :
    declarationOn? l = none := by
  have hstarts : ∀ start ∈ declarationStarts, ∃ rest, start.toList = 'e' :: rest := by
    simp [declarationStarts]
  rw [declarationOn?, List.findSome?_eq_none_iff.mpr fun start hmem => ?_, Option.map_none]
  obtain ⟨rest, hrest⟩ := hstarts start hmem
  rw [hrest, dropPrefix?_of_head? h]

/-- **The lines of code declare what its pieces declare.** -/
theorem filterMap_linesAllAt (code : List Code) :
    (linesAllAt 0 code).filterMap declarationOn? = code.flatMap (atMargin declarationOn?) :=
  FindsBehind.filterMap_linesAllAt (fun _ => declarationOn?_of_head?) (by decide) code

/-! ## The declarations of a client module -/

/-- A word ends where a character stands that is no part of one. -/
theorem not_isWordPart_of_mem_head? {cs : List Char} (h : cs.head?.any Scan.isWordPart = false) :
    ∀ c ∈ cs.head?, Scan.isWordPart c = false := fun c hc => by
  rwa [Option.mem_def.mp hc, Option.any_some] at h

/-- **A declaration is read back.** -/
theorem declarationOn?_declaration {start n back : String} (hstart : start ∈ declarationStarts)
    (hname : ∀ c ∈ n.toList, Scan.isWordPart c = true)
    (hback : back.toList.head?.any Scan.isWordPart = false) :
    declarationOn? (start ++ n ++ back).toList = some (n, back) := by
  have hfound : ∀ rest : List Char, (declarationStarts.findSome? fun s =>
      (start.toList ++ rest).dropPrefix? s.toList) = some rest := fun rest => by
    simp only [declarationStarts, List.mem_cons, List.not_mem_nil, or_false] at hstart
    rcases hstart with rfl | rfl | rfl | rfl <;> simp [declarationStarts, List.dropPrefix?]
  obtain ⟨htake, hdrop⟩ := Scan.span_run hname (not_isWordPart_of_mem_head? hback)
  rw [declarationOn?, String.toList_append, String.toList_append, List.append_assoc, hfound,
    Option.map_some, htake, hdrop, String.ofList_toList, String.ofList_toList]

/-- A block declares what its first line declares. -/
theorem atMargin_declarationOn?_block {opening closing : String} (body : List Code)
    (h : closing.toList.head? = some '\x7d') :
    atMargin declarationOn? (.block opening body closing)
      = atMargin declarationOn? (.line opening) := by
  have hclosing : declarationOn? closing.toList = none :=
    declarationOn?_of_head? (by rw [h]; decide)
  simp [atMargin, hclosing]

/-- The header is a comment. -/
theorem flatMap_declarationOn?_header (c : Contract) (kind : ModuleKind) :
    (header c kind).flatMap (atMargin declarationOn?) = [] := by
  have hfirst : ∀ rest : List Char, declarationOn? ('/' :: rest) = none := fun rest =>
    declarationOn?_of_head? (by simp)
  simp [header, atMargin, hfirst]

theorem flatMap_declarationOn?_messageTypes :
    messageTypes.flatMap (atMargin declarationOn?)
      = [("IntentMessage", " \x7b"), ("IntentTransport", " \x7b")] := by
  decide

section Client

variable {c : Contract}

/-- The names that are made from the contract's name consist of word characters, as that does. -/
theorem isWordPart_of_mem_derived (h : isWord c.name = true) :
    ∀ n ∈ [c.registryName, c.clientName, c.factoryName], ∀ d ∈ n.toList,
      Scan.isWordPart d = true := by
  have hname := isWordPart_of_isWord h
  have hintents := isWordPart_of_isWord (by decide : isWord "Intents" = true)
  have hclient := isWordPart_of_isWord (by decide : isWord "Client" = true)
  have hcreate := isWordPart_of_isWord (by decide : isWord "create" = true)
  simp only [List.forall_mem_cons, Contract.registryName, Contract.clientName, Contract.factoryName,
    String.toList_append, List.forall_mem_append]
  exact ⟨⟨hname, hintents⟩, ⟨hname, hclient⟩, ⟨⟨hcreate, hname⟩, hclient⟩, List.forall_mem_nil _⟩

/-- **The declarations of a client module**: names, and what stands behind them. -/
theorem declarationsIn_client (h : c.WellFormed) :
    declarationsIn (c.generate .typeScript).client.text
      = [("IntentMessage", " \x7b"), ("IntentTransport", " \x7b")]
        ++ c.referencedTypes.map (·, placeholderEnd)
        ++ [(c.registryName, " = \x7b"), (c.clientName, " \x7b")]
        ++ (if c.referencesSelf then [(c.name, " = " ++ c.clientName ++ ";")] else [])
        ++ [(c.factoryName, "(transport: IntentTransport): " ++ c.clientName ++ " \x7b")] := by
  have hdeclares : ∀ {start n back : String}, start ∈ declarationStarts →
      (∀ d ∈ n.toList, Scan.isWordPart d = true) →
      back.toList.head?.any Scan.isWordPart = false →
      atMargin declarationOn? (.line (start ++ n ++ back)) = [(n, back)] :=
      fun hstart hname hback => by
    rw [atMargin, declarationOn?_declaration hstart hname hback, Option.toList_some]
  have hderived := isWordPart_of_mem_derived h.name
  have hplaceholders : (c.referencedTypes.map typePlaceholder).flatMap (atMargin declarationOn?)
      = c.referencedTypes.map (·, placeholderEnd) := by
    rw [List.flatMap_map, List.map_eq_flatMap]
    refine List.flatMap_congr fun n hn => ?_
    have hword := h.isWord_of_mem_referencedTypes n hn
    exact hdeclares (by decide) (isWordPart_of_isWord hword) (by decide)
  have hregistry : atMargin declarationOn? (typedRegistry c) = [(c.registryName, " = \x7b")] := by
    rw [typedRegistry, atMargin_declarationOn?_block _ rfl]
    exact hdeclares (by decide) (hderived _ (by simp)) (by decide)
  have hclient : atMargin declarationOn? (clientType c) = [(c.clientName, " \x7b")] := by
    rw [clientType, atMargin_declarationOn?_block _ rfl]
    exact hdeclares (by decide) (hderived _ (by simp)) (by decide)
  have halias : atMargin declarationOn? (selfType c)
      = [(c.name, " = " ++ c.clientName ++ ";")] := by
    have hline : "export type " ++ c.name ++ " = " ++ c.clientName ++ ";"
        = "export type " ++ c.name ++ (" = " ++ c.clientName ++ ";") := by
      simp only [String.append_assoc]
    rw [selfType, hline]
    exact hdeclares (by decide) (isWordPart_of_isWord h.name) (by simp +decide)
  have hfactory : atMargin declarationOn? (typedFactory c)
      = [(c.factoryName, "(transport: IntentTransport): " ++ c.clientName ++ " \x7b")] := by
    have hline : "export function " ++ c.factoryName ++ "(transport: IntentTransport): "
          ++ c.clientName ++ " \x7b"
        = "export function " ++ c.factoryName
          ++ ("(transport: IntentTransport): " ++ c.clientName ++ " \x7b") := by
      simp only [String.append_assoc]
    rw [typedFactory, atMargin_declarationOn?_block _ rfl, hline]
    exact hdeclares (by decide) (hderived _ (by simp)) (by simp +decide)
  have hself : (if c.referencesSelf then [selfType c] else []).flatMap (atMargin declarationOn?)
      = if c.referencesSelf then [(c.name, " = " ++ c.clientName ++ ";")] else [] := by
    split <;> simp [halias]
  have hlast : [[]].filterMap declarationOn? = [] := by decide
  rw [declarationsIn, lines_client h, List.filterMap_append, filterMap_linesAllAt, hlast,
    List.append_nil]
  simp only [clientCode, typedClient, List.flatMap_append, flatMap_declarationOn?_header,
    flatMap_declarationOn?_messageTypes, flatMap_atMargin_paragraph, hplaceholders, hself,
    List.flatMap_cons, List.flatMap_nil, hregistry, hclient, hfactory]
  rfl

/-- Texts that end differently differ. -/
theorem ne_of_ends_ne {s t : String} (length : Nat)
    (h : s.toList.reverse.take length ≠ t.toList.reverse.take length) : s ≠ t := fun heq =>
  h (by rw [heq])

/-- The contract's own name, where a signature uses it. -/
def selfNames (c : Contract) : List String :=
  if c.referencesSelf then [c.name] else []

theorem declaredNames_client (h : c.WellFormed) :
    declaredNames (c.generate .typeScript).client.text
      = ["IntentMessage", "IntentTransport"] ++ c.referencedTypes
        ++ [c.registryName, c.clientName] ++ selfNames c ++ [c.factoryName] := by
  have hname : Prod.fst ∘ (fun n : String => (n, placeholderEnd)) = id := rfl
  rw [declaredNames, declarationsIn_client h, selfNames]
  cases c.referencesSelf <;> simp [hname]

/-- **The placeholders are the custom types.** -/
theorem placeholderNames_client (h : c.WellFormed) :
    placeholderNames (c.generate .typeScript).client.text = c.referencedTypes := by
  have hfixed : " \x7b" ≠ placeholderEnd ∧ " = \x7b" ≠ placeholderEnd := by decide
  have hself : " = " ++ c.clientName ++ ";" ≠ placeholderEnd :=
    ne_of_ends_ne 2 (by simp [Contract.clientName, placeholderEnd])
  have hfactory : "(transport: IntentTransport): " ++ c.clientName ++ " \x7b" ≠ placeholderEnd :=
    ne_of_ends_ne 1 (by simp [placeholderEnd])
  have htypes : ((c.referencedTypes.map (·, placeholderEnd)).filter
      fun d => d.2 = placeholderEnd).map Prod.fst = c.referencedTypes := by
    rw [List.filter_eq_self.mpr (by simp), List.map_map]
    exact List.map_id _
  rw [placeholderNames, declarationsIn_client h]
  cases c.referencesSelf <;> simp [hfixed, hself, hfactory, htypes]

/-! ## Distinct names -/

/-- **The reserved names are distinct**, whatever the contract is called. -/
theorem nodup_reservedNames (c : Contract) : (reservedNames c).Nodup := by
  have hends : ∀ n ∈ ["IntentMessage", "IntentTransport"], ∀ a : String,
      n ≠ a ++ "Intents" ∧ n ≠ a ++ "Client" := by
    simp only [List.forall_mem_cons]
    exact ⟨fun a => ⟨ne_of_ends_ne 1 (by simp), ne_of_ends_ne 1 (by simp)⟩,
      fun a => ⟨ne_of_ends_ne 1 (by simp), ne_of_ends_ne 2 (by simp)⟩, List.forall_mem_nil _⟩
  have hregistry : ∀ a b : String, a ++ "Intents" ≠ b ++ "Client" := fun a b =>
    ne_of_ends_ne 1 (by simp)
  have hfactory : c.name ++ "Client" ≠ "create" ++ c.name ++ "Client" := fun heq => by
    have hlength := congrArg (fun s : String => s.toList.length) heq
    simp at hlength
  simp [reservedNames, Contract.registryName, Contract.clientName, Contract.factoryName,
    hends, hregistry, hfactory]

/-- No name is declared twice for the signatures. -/
theorem nodup_types (c : Contract) : (c.referencedTypes ++ selfNames c).Nodup := by
  have hcustom : c.customTypes.Nodup := (NameSet.pairwise_ofList _).imp fun hlt heq => by
    rw [heq] at hlt
    exact String.lt_irrefl _ hlt
  rw [List.nodup_append, selfNames]
  refine ⟨hcustom.filter _, ?_, ?_⟩
  · split <;> simp
  · split
    · simp [Contract.referencedTypes]
    · simp

/-- What is declared for the signatures are the custom types. -/
theorem mem_types {n : String} : n ∈ c.referencedTypes ++ selfNames c ↔ n ∈ c.customTypes := by
  rw [mem_customTypes_iff, List.mem_append, selfNames]
  split <;> simp [*]

/-- **A client module declares each name once just if no custom type has a reserved name.** -/
theorem nodup_declared_iff (h : c.WellFormed) :
    (declaredNames (c.generate .typeScript).client.text).Nodup
      ↔ ∀ n ∈ reservedNames c, n ∉ c.customTypes := by
  -- the reserved names and the types are declared in another order than they are compared in
  have hperm : (declaredNames (c.generate .typeScript).client.text).Perm
      (reservedNames c ++ (c.referencedTypes ++ selfNames c)) := by
    rw [declaredNames_client h, reservedNames]
    refine List.perm_iff_count.mpr fun n => ?_
    simp only [List.count_append, List.count_cons, List.count_nil]
    omega
  have hdistinct := nodup_reservedNames c
  have htypes := nodup_types c
  rw [hperm.nodup_iff, List.nodup_append]
  refine ⟨fun hnodup n hn hmem => hnodup.2.2 n hn n (mem_types.mpr hmem) rfl, fun hfree => ?_⟩
  refine ⟨hdistinct, htypes, fun n hn m hm heq => hfree n hn ?_⟩
  rw [heq]
  exact mem_types.mp hm

/-! ## Names of the target -/

/-- A custom type is none that the target defines, nor one that it has another name for. -/
theorem isCustomName_of_mem_customTypes {n : String} (h : n ∈ c.customTypes) :
    TypeDescriptor.isCustomName n = true :=
  TypeDescriptor.isCustomName_iff.mpr (Contract.mem_customTypes_iff_uses.mp h).2

/-- **Of the names that the target has, only two can be custom types.** -/
theorem redeclares_iff (c : Contract) :
    (∀ n ∈ c.referencedTypes, n ∉ targetNames)
      ↔ ∀ n ∈ ["number", "string"], n ∉ c.referencedTypes := by
  refine ⟨fun h n hn hmem => ?_, fun h n hmem hn => ?_⟩
  · have htarget : ∀ n ∈ ["number", "string"], n ∈ targetNames := by decide
    exact h n hmem (htarget n hn)
  · have hcustom := isCustomName_of_mem_customTypes (List.mem_filter.mp hmem).1
    have htarget : ∀ n ∈ targetNames, TypeDescriptor.isCustomName n = true →
        n ∈ ["number", "string"] := by decide
    exact h n (htarget n hn hcustom) hmem

end Client

/-- **The names of a client module**: which they are, that they are distinct just if no custom type
has a reserved name, and that a placeholder takes a name of the target just if it takes `number`
or `string`. -/
theorem client_declares {source : String} {c : Contract} (h : Contract.ofSource source = .ok c) :
    declaredNames (c.generate .typeScript).client.text
        = ["IntentMessage", "IntentTransport"] ++ c.referencedTypes
          ++ [c.registryName, c.clientName] ++ selfNames c ++ [c.factoryName]
      ∧ placeholderNames (c.generate .typeScript).client.text = c.referencedTypes
      ∧ ((declaredNames (c.generate .typeScript).client.text).Nodup
        ↔ ∀ n ∈ reservedNames c, n ∉ c.customTypes)
      ∧ ((∀ n ∈ placeholderNames (c.generate .typeScript).client.text, n ∉ targetNames)
        ↔ ∀ n ∈ ["number", "string"],
          n ∉ placeholderNames (c.generate .typeScript).client.text) := by
  have hc := Contract.wellFormed_of_ofSource h
  refine ⟨declaredNames_client hc, placeholderNames_client hc, nodup_declared_iff hc, ?_⟩
  rw [placeholderNames_client hc]
  exact redeclares_iff c

/-- A contract that refers to itself, to a custom type and to a message. -/
theorem client_declares_shop :
    ∃ c, Contract.ofSource "interface Shop \x7b Shop open(Card x, Message y); \x7d;" = .ok c
      ∧ (declaredNames (c.generate .typeScript).client.text).Nodup
      ∧ ∀ n ∈ placeholderNames (c.generate .typeScript).client.text, n ∉ targetNames := by
  have hc : Contract.ofSource "interface Shop \x7b Shop open(Card x, Message y); \x7d;"
      = .ok ⟨"Shop", none, none, [⟨"open", [⟨"x", .primitive "Card"⟩, ⟨"y", .primitive "Message"⟩],
        some (.primitive "Shop"), .ofAttributes []⟩]⟩ := by
    with_unfolding_all rfl
  obtain ⟨-, hplaceholders, hnodup, htarget⟩ := client_declares hc
  refine ⟨_, hc, hnodup.mpr (by decide), htarget.mpr ?_⟩
  rw [hplaceholders]
  decide

/-- **A custom type may have the name of the type of messages**, and one the name of a type of the
target. -/
theorem client_declares_twice :
    ∃ c, Contract.ofSource "interface I \x7b string f(IntentMessage m); \x7d;" = .ok c
      ∧ declaredNames (c.generate .typeScript).client.text
        = ["IntentMessage", "IntentTransport", "IntentMessage", "string", "IIntents", "IClient",
          "createIClient"]
      ∧ ¬ (declaredNames (c.generate .typeScript).client.text).Nodup
      ∧ "string" ∈ placeholderNames (c.generate .typeScript).client.text := by
  have hc : Contract.ofSource "interface I \x7b string f(IntentMessage m); \x7d;"
      = .ok ⟨"I", none, none, [⟨"f", [⟨"m", .primitive "IntentMessage"⟩],
        some (.primitive "string"), .ofAttributes []⟩]⟩ := by
    with_unfolding_all rfl
  have hwf := Contract.wellFormed_of_ofSource hc
  refine ⟨_, hc, ?_, ?_, ?_⟩
  · rw [declaredNames_client hwf]
    decide
  · rw [nodup_declared_iff hwf]
    decide
  · rw [placeholderNames_client hwf]
    decide

end IntentContract.Generated
