import IntentContract.Proofs.Generated.Bindings
import IntentContract.Proofs.Generated.Declarations

/-!
# Types that modules declare and import

For each name that a contract uses, the client module has a declaration, and the handler module
imports it from there. Nothing else is declared in this way, and of other types only that of
messages is imported. The contract's own name is not declared as a placeholder but as the type of its
clients, and only if it is used.

The declarations and the imports are read off the text in both flavors. With type declarations they
are statements of the target, with types in comments they are one-line comments. All of them stand
at the margin.
-/

namespace IntentContract.Generated

open Text Code

/-! ## Reading declarations of types -/

/-- The type that a statement declares on a line, and what it stands for. -/
def aliasOn? (line : List Char) : Option (String × String) := do
  let rest ← line.dropPrefix? "export type ".toList
  let type ← (rest.dropWhile Scan.isWordPart).dropPrefix? " = ".toList
  if type.getLast? = some ';' then
    some (String.ofList (rest.takeWhile Scan.isWordPart), String.ofList type.dropLast)
  else none

/-- The type that a comment declares on a line, and what it stands for. -/
def typeCommentOn? (line : List Char) : Option (String × String) := do
  let rest ← line.dropPrefix? "/** @typedef \x7b".toList
  let name ← (rest.dropWhile (· ≠ '\x7d')).dropPrefix? "\x7d ".toList
  if name.dropWhile Scan.isWordPart = " */".toList then
    some (String.ofList (name.takeWhile Scan.isWordPart),
      String.ofList (rest.takeWhile (· ≠ '\x7d')))
  else none

/-- **The types that a module declares by a line**: names, and what they stand for. -/
def typesDeclaredIn (flavor : Flavor) (text : String) : List (String × String) :=
  (lines text).filterMap <|
    match flavor with
    | .typeScript => aliasOn?
    | .javaScript => typeCommentOn?

/-- What a placeholder stands for: a record of unknown content. -/
def recordType : Flavor → String
  | .typeScript => "Record<string, unknown>"
  | .javaScript => "Object<string, *>"

/-- What the contract's own name stands for: the type of its clients. -/
def ownType (c : Contract) : Flavor → String
  | .typeScript => c.clientName
  | .javaScript => "ReturnType<typeof " ++ c.factoryName ++ ">"

theorem ownType_typeScript (c : Contract) : ownType c .typeScript = c.clientName :=
  rfl

theorem ownType_javaScript (c : Contract) :
    ownType c .javaScript = "ReturnType<typeof " ++ c.factoryName ++ ">" :=
  rfl

/-! ## Reading imports -/

/-- **A name that a module imports**: where from, the name there, and the name in the module. -/
structure Import where
  path : String
  name : String
  known : String
  deriving DecidableEq

/-- The names between braces that an import takes from a path, on a line that begins in a given
way. -/
def importsOn? (start : String) (line : List Char) : Option (List Import) := do
  let rest ← line.dropPrefix? start.toList
  let (some path, close) ← valueInFront?
    (← (rest.dropWhile (· ≠ '\x7d')).dropPrefix? "\x7d from ".toList) | none
  if close = ";".toList then
    let names := ((rest.takeWhile (· ≠ '\x7d')).dropLast.splitOn ',').map unindented
    some (names.map fun n => ⟨path, String.ofList n, String.ofList n⟩)
  else none

/-- The import of a type that a comment makes on a line. -/
def importCommentOn? (line : List Char) : Option Import := do
  let (some path, rest) ← valueInFront?
    (← line.dropPrefix? "/** @typedef \x7bimport(".toList) | none
  let name ← rest.dropPrefix? ").".toList
  let known ← (name.dropWhile Scan.isWordPart).dropPrefix? "\x7d ".toList
  if known.dropWhile Scan.isWordPart = " */".toList then
    some ⟨path, String.ofList (name.takeWhile Scan.isWordPart),
      String.ofList (known.takeWhile Scan.isWordPart)⟩
  else none

/-- **The values that a module imports.** -/
def valuesImportedIn (text : String) : List Import :=
  ((lines text).filterMap (importsOn? "import \x7b ")).flatten

/-- **The types that a module imports.** -/
def typesImportedIn (flavor : Flavor) (text : String) : List Import :=
  match flavor with
  | .typeScript => ((lines text).filterMap (importsOn? "import type \x7b ")).flatten
  | .javaScript => (lines text).filterMap importCommentOn?

/-! ## Lines that are read back -/

/-- The word in front of a text that goes on with something else. -/
theorem span_isWord {n : String} (h : isWord n = true) (rest : List Char)
    (hrest : rest.head?.any Scan.isWordPart = false) :
    (n.toList ++ rest).takeWhile Scan.isWordPart = n.toList
      ∧ (n.toList ++ rest).dropWhile Scan.isWordPart = rest :=
  Scan.span_run (isWordPart_of_isWord h) (not_isWordPart_of_mem_head? hrest)

/-- What stands in front of a closing brace. -/
theorem span_brace {cs : List Char} (h : '\x7d' ∉ cs) (rest : List Char) :
    (cs ++ '\x7d' :: rest).takeWhile (· ≠ '\x7d') = cs
      ∧ (cs ++ '\x7d' :: rest).dropWhile (· ≠ '\x7d') = '\x7d' :: rest :=
  Scan.span_run (fun _ hd => decide_eq_true fun heq => h (heq ▸ hd)) (by simp)

theorem brace_not_mem_of_isWord {n : String} (h : isWord n = true) : '\x7d' ∉ n.toList :=
  fun hmem => absurd (isWordPart_of_isWord h _ hmem) (by decide)

section Lines

variable {text : String} {n : String}

theorem aliasOn?_line (hname : isWord n = true) (type : String)
    (htext : text.toList
      = "export type ".toList ++ (n.toList ++ (" = ".toList ++ (type.toList ++ [';'])))) :
    aliasOn? text.toList = some (n, type) := by
  obtain ⟨htake, hdrop⟩ := span_isWord hname (" = ".toList ++ (type.toList ++ [';'])) rfl
  rw [aliasOn?, htext, dropPrefix?_append]
  simp only [Option.bind_eq_bind, Option.bind_some, htake, hdrop, dropPrefix?_append,
    List.getLast?_concat, List.dropLast_concat, String.ofList_toList, if_true]

theorem typeCommentOn?_line (hname : isWord n = true) (type : String)
    (htype : '\x7d' ∉ type.toList)
    (htext : text.toList = "/** @typedef \x7b".toList ++ (type.toList
      ++ ('\x7d' :: ' ' :: (n.toList ++ " */".toList)))) :
    typeCommentOn? text.toList = some (n, type) := by
  obtain ⟨htype', hbrace⟩ := span_brace htype (' ' :: (n.toList ++ " */".toList))
  obtain ⟨htake, hdrop⟩ := span_isWord hname " */".toList rfl
  have hclose : ∀ rest, ('\x7d' :: ' ' :: rest).dropPrefix? "\x7d ".toList = some rest :=
    dropPrefix?_append ['\x7d', ' ']
  rw [typeCommentOn?, htext, dropPrefix?_append]
  simp only [Option.bind_eq_bind, Option.bind_some, htype', hbrace, hclose, htake, hdrop,
    String.ofList_toList, if_true]

theorem importsOn?_line {start : String} (path : String) {names : List String} (hne : names ≠ [])
    (hnames : ∀ n ∈ names, isWord n = true)
    (htext : text.toList = start.toList ++ (((join ", " names).toList ++ [' '])
      ++ '\x7d' :: (" from ".toList ++ ((Json.literal path).toList ++ ";".toList)))) :
    importsOn? start text.toList = some (names.map fun n => ⟨path, n, n⟩) := by
  have hbrace : '\x7d' ∉ (join ", " names).toList ++ [' '] := by
    rw [List.mem_append, not_or]
    exact ⟨not_mem_join (by decide) fun n hn => brace_not_mem_of_isWord (hnames n hn), by decide⟩
  have hcomma : ∀ n ∈ names, ',' ∉ n.toList := fun n hn hmem =>
    absurd (isWordPart_of_isWord (hnames n hn) _ hmem) (by decide)
  have hunindented : ∀ n ∈ names, unindented n.toList = n.toList := fun n hn => by
    simpa using unindented_word (hnames n hn) []
  obtain ⟨htake, hdrop⟩ := span_brace hbrace
    (" from ".toList ++ ((Json.literal path).toList ++ ";".toList))
  have hfrom : ∀ rest, ('\x7d' :: (" from ".toList ++ rest)).dropPrefix? "\x7d from ".toList
      = some rest := dropPrefix?_append "\x7d from ".toList
  rw [importsOn?, htext, dropPrefix?_append]
  simp only [Option.bind_eq_bind, Option.bind_some, htake, hdrop, hfrom, valueInFront?_literal,
    if_true, List.dropLast_concat]
  rw [map_unindented_splitOn_join hne hcomma, List.map_map]
  refine congrArg some (List.map_congr_left fun n hn => ?_)
  simp only [Function.comp_apply, hunindented n hn, String.ofList_toList]

theorem importCommentOn?_line (path : String) (hname : isWord n = true)
    (htext : text.toList = "/** @typedef \x7bimport(".toList ++ ((Json.literal path).toList
      ++ (").".toList ++ (n.toList ++ ("\x7d ".toList ++ (n.toList ++ " */".toList)))))) :
    importCommentOn? text.toList = some ⟨path, n, n⟩ := by
  obtain ⟨htake, hdrop⟩ := span_isWord hname ("\x7d ".toList ++ (n.toList ++ " */".toList)) rfl
  obtain ⟨hknown, hclose⟩ := span_isWord hname " */".toList rfl
  rw [importCommentOn?, htext, dropPrefix?_append]
  simp only [Option.bind_eq_bind, Option.bind_some, valueInFront?_literal, dropPrefix?_append,
    htake, hdrop, hknown, hclose, if_true, String.ofList_toList]

end Lines

/-! ## Lines that are passed over -/

/-- **A reader of the margin**: it finds something only behind a first character that is no blank,
and nothing in plain comments or on the first line of a long one. -/
structure ReadsMargin {α : Type} (read : List Char → Option α) (first : Char) : Prop where
  finds : FindsBehind read first
  margin : first ≠ ' '
  plainComment : ∀ rest, read ('/' :: '/' :: rest) = none
  longComment : read "/**".toList = none

/-- A reader that first takes something off the line reads the margin, unless comments begin with
it. -/
theorem readsMargin_bind {α : Type} {start : String} {first : Char}
    (hstart : start.toList.head? = some first) (hmargin : first ≠ ' ')
    (hplain : ∀ rest, List.dropPrefix? ('/' :: '/' :: rest) start.toList = none)
    (hlong : "/**".toList.dropPrefix? start.toList = none) (next : List Char → Option α) :
    ReadsMargin (fun l => l.dropPrefix? start.toList >>= next) first where
  finds l hl := by
    obtain ⟨rest, hrest⟩ := List.head?_eq_some_iff.mp hstart
    show l.dropPrefix? start.toList >>= next = none
    rw [hrest, dropPrefix?_of_head? hl]
    rfl
  margin := hmargin
  plainComment rest := congrArg (· >>= next) (hplain rest)
  longComment := congrArg (· >>= next) hlong

theorem readsMargin_aliasOn? : ReadsMargin aliasOn? 'e' :=
  readsMargin_bind rfl (by decide) (fun _ => rfl) rfl _

theorem readsMargin_typeCommentOn? : ReadsMargin typeCommentOn? '/' :=
  readsMargin_bind rfl (by decide) (fun _ => rfl) rfl _

theorem readsMargin_importsOn? : ∀ start ∈ ["import \x7b ", "import type \x7b "],
    ReadsMargin (importsOn? start) 'i' := by
  rw [List.forall_mem_cons, List.forall_mem_singleton]
  exact ⟨readsMargin_bind rfl (by decide) (fun _ => rfl) rfl _,
    readsMargin_bind rfl (by decide) (fun _ => rfl) rfl _⟩

theorem readsMargin_importCommentOn? : ReadsMargin importCommentOn? '/' :=
  readsMargin_bind rfl (by decide) (fun _ => rfl) rfl _

namespace ReadsMargin

variable {c : Contract} {α : Type} {read : List Char → Option α} {first : Char}

theorem filterMap_client (hread : ReadsMargin read first) (h : c.WellFormed) (flavor : Flavor) :
    (lines (c.generate flavor).client.text).filterMap read
      = (clientCode flavor c).flatMap (atMargin read) := by
  have hlast : [[]].filterMap read = [] := by simp [hread.finds [] nofun]
  rw [lines_client h, List.filterMap_append, hread.finds.filterMap_linesAllAt hread.margin, hlast,
    List.append_nil]

theorem filterMap_handlers (hread : ReadsMargin read first) (h : c.WellFormed) (flavor : Flavor) :
    (lines (c.generate flavor).handlers.text).filterMap read
      = (handlersCode flavor c).flatMap (atMargin read) := by
  have hlast : [[]].filterMap read = [] := by simp [hread.finds [] nofun]
  rw [lines_handlers h, List.filterMap_append, hread.finds.filterMap_linesAllAt hread.margin, hlast,
    List.append_nil]

theorem line (hread : ReadsMargin read first) {text : String}
    (hfirst : text.toList.head? ≠ some first) : atMargin read (.line text) = [] := by
  rw [atMargin, hread.finds _ hfirst, Option.toList_none]

theorem block (hread : ReadsMargin read first) {opening closing : String} (body : List Code)
    (hopening : opening.toList.head? ≠ some first) (hclosing : closing.toList.head? ≠ some first) :
    atMargin read (.block opening body closing) = [] := by
  rw [atMargin, hread.finds _ hopening, hread.finds _ hclosing, Option.toList_none, List.append_nil]

theorem header (hread : ReadsMargin read first) (c : Contract) (kind : ModuleKind) :
    (Generated.header c kind).flatMap (atMargin read) = [] := by
  simp [Generated.header, atMargin, hread.plainComment]

theorem docComment (hread : ReadsMargin read first) (texts : List String) :
    (Generated.docComment texts).flatMap (atMargin read) = [] := by
  have hblank : ∀ rest, read (' ' :: rest) = none := fun rest =>
    hread.finds _ fun heq => hread.margin (Option.some.inj heq).symm
  have hopen := hread.longComment
  simp_all [Generated.docComment, atMargin, List.flatMap_map]

end ReadsMargin

/-! ## What the modules declare and import -/

section Modules

variable {c : Contract}

/-- The placeholders are sorted, without repetition. -/
theorem pairwise_referencedTypes (c : Contract) : c.referencedTypes.Pairwise (· < ·) :=
  (NameSet.pairwise_ofList _).filter _

theorem typesDeclaredIn_typedClient (h : c.WellFormed) :
    typesDeclaredIn .typeScript (c.generate .typeScript).client.text
      = c.referencedTypes.map (·, recordType .typeScript)
        ++ (selfNames c).map (·, ownType c .typeScript) := by
  have hread := readsMargin_aliasOn?
  have hplaceholders : (c.referencedTypes.map typePlaceholder).flatMap (atMargin aliasOn?)
      = c.referencedTypes.map (·, recordType .typeScript) := by
    rw [List.flatMap_map, List.map_eq_flatMap]
    refine List.flatMap_congr fun n hn => ?_
    rw [typePlaceholder, atMargin, aliasOn?_line (h.isWord_of_mem_referencedTypes n hn)
      (recordType .typeScript) (by simp [recordType])]
    rfl
  have hself : atMargin aliasOn? (selfType c) = [(c.name, ownType c .typeScript)] := by
    rw [selfType, atMargin, aliasOn?_line h.name (ownType c .typeScript)
      (by simp [ownType_typeScript])]
    rfl
  have hselfNames : (if c.referencesSelf then [selfType c] else []).flatMap (atMargin aliasOn?)
      = (selfNames c).map (·, ownType c .typeScript) := by
    rw [selfNames]
    split <;> simp [hself]
  have hmessages : messageTypes.flatMap (atMargin aliasOn?) = [] := by
    simp [messageTypes, atMargin, aliasOn?, List.dropPrefix?]
  have hother : atMargin aliasOn? (typedRegistry c) = [] ∧ atMargin aliasOn? (clientType c) = []
      ∧ atMargin aliasOn? (typedFactory c) = [] := by
    simp [typedRegistry, clientType, typedFactory, atMargin, aliasOn?, List.dropPrefix?]
  rw [typesDeclaredIn, hread.filterMap_client h]
  simp only [clientCode, typedClient, List.flatMap_append, List.flatMap_cons, List.flatMap_nil,
    hread.header, hmessages, flatMap_atMargin_paragraph, hplaceholders, hselfNames, hother,
    atMargin_blank, List.append_nil, List.nil_append]

theorem typesDeclaredIn_commentedClient (h : c.WellFormed) :
    typesDeclaredIn .javaScript (c.generate .javaScript).client.text
      = c.referencedTypes.map (·, recordType .javaScript)
        ++ (selfNames c).map (·, ownType c .javaScript) := by
  have hread := readsMargin_typeCommentOn?
  have hplaceholders : (c.referencedTypes.map commentPlaceholder).flatMap (atMargin typeCommentOn?)
      = c.referencedTypes.map (·, recordType .javaScript) := by
    rw [List.flatMap_map, List.map_eq_flatMap]
    refine List.flatMap_congr fun n hn => ?_
    rw [commentPlaceholder, atMargin, typeCommentOn?_line (h.isWord_of_mem_referencedTypes n hn)
      (recordType .javaScript) (by decide) (by simp [recordType])]
    rfl
  have hbrace : '\x7d' ∉ (ownType c .javaScript).toList := by
    simp [ownType_javaScript, Contract.factoryName, brace_not_mem_of_isWord h.name]
  have hself : atMargin typeCommentOn? (selfComment c) = [(c.name, ownType c .javaScript)] := by
    rw [selfComment, atMargin, typeCommentOn?_line h.name (ownType c .javaScript) hbrace
      (by simp [ownType_javaScript])]
    rfl
  have hselfNames : (if c.referencesSelf then [.blank, selfComment c] else []).flatMap
        (atMargin typeCommentOn?)
      = (selfNames c).map (·, ownType c .javaScript) := by
    rw [selfNames]
    split <;> simp [hself]
  have hmessages : messageComments.flatMap (atMargin typeCommentOn?) = [] := by
    simp only [messageComments, List.flatMap_append, hread.docComment, List.flatMap_singleton,
      atMargin_blank, List.append_nil]
  have hregistry : atMargin typeCommentOn? (frozenRegistry c) = [] :=
    hread.block _ (by simp) (by simp)
  have hfactory : (commentedFactory c).flatMap (atMargin typeCommentOn?) = [] := by
    rw [commentedFactory, List.flatMap_append, hread.docComment, List.flatMap_singleton,
      List.nil_append]
    exact hread.block _ (by simp) (by simp)
  rw [typesDeclaredIn, hread.filterMap_client h]
  simp only [clientCode, commentedClient, List.flatMap_append, List.flatMap_cons, List.flatMap_nil,
    hread.header, hmessages, flatMap_atMargin_paragraph, hplaceholders, hselfNames, hregistry,
    hfactory, atMargin_blank, List.append_nil, List.nil_append]

/-- **A client module declares the placeholders, and its own name** where that is used. -/
theorem typesDeclaredIn_client (h : c.WellFormed) (flavor : Flavor) :
    typesDeclaredIn flavor (c.generate flavor).client.text
      = c.referencedTypes.map (·, recordType flavor)
        ++ (selfNames c).map (·, ownType c flavor) :=
  match flavor with
  | .typeScript => typesDeclaredIn_typedClient h
  | .javaScript => typesDeclaredIn_commentedClient h

theorem isWord_append {n more : String} (h : isWord n = true)
    (hmore : ∀ d ∈ more.toList, Scan.isWordPart d = true) : isWord (n ++ more) = true := by
  obtain ⟨d, ds, hn, hd, hds⟩ := isWord_iff.mp h
  refine isWord_iff.mpr ⟨d, ds ++ more.toList, ?_, hd, List.forall_mem_append.mpr ⟨hds, hmore⟩⟩
  rw [String.toList_append, hn, List.cons_append]

theorem importsOn?_registryImport (h : c.WellFormed) (flavor : Flavor) :
    atMargin (importsOn? "import \x7b ") (registryImport c flavor)
      = [[⟨c.clientImport flavor, c.registryName, c.registryName⟩]] := by
  have hname : isWord c.registryName = true :=
    isWord_append h.name (isWordPart_of_isWord (by decide : isWord "Intents" = true))
  rw [registryImport, atMargin, importsOn?_line (c.clientImport flavor)
    (List.cons_ne_nil c.registryName []) (List.forall_mem_singleton.mpr hname) (by simp [join])]
  rfl

/-- In a handler module there is something to be found on the imports only, unless the reader looks
for exported names. -/
theorem ReadsMargin.typedHandlers {α : Type} {read : List Char → Option α} {first : Char}
    (hread : ReadsMargin read first) (hfirst : first ∉ ['e', '\x7d']) (c : Contract) :
    (typedHandlers c).flatMap (atMargin read)
      = atMargin read (registryImport c .typeScript) ++ atMargin read (typeImport c) := by
  rw [List.mem_cons, List.mem_singleton, not_or] at hfirst
  have hblock : ∀ {opening closing : String} (body : List Code),
      opening.toList.head? = some 'e' → closing.toList.head? = some '\x7d' →
      atMargin read (.block opening body closing) = [] := fun body hopening hclosing =>
    hread.block body (by simpa [hopening] using Ne.symm hfirst.1)
      (by simpa [hclosing] using Ne.symm hfirst.2)
  have hruntime : atMargin read runtimeType = [] := hblock _ rfl rfl
  have hhandlers : atMargin read (handlersType c) = [] := hblock _ (by simp) rfl
  have hregistrar : atMargin read (typedRegistrar c) = [] := hblock _ (by simp) rfl
  simp only [Generated.typedHandlers, List.flatMap_append, List.flatMap_cons, List.flatMap_nil,
    hread.header, hruntime, hhandlers, hregistrar, atMargin_blank, List.append_nil,
    List.nil_append]

theorem ReadsMargin.commentedHandlers {α : Type} {read : List Char → Option α} {first : Char}
    (hread : ReadsMargin read first) (hfirst : first ∉ ['e', '\x7d']) (c : Contract) :
    (commentedHandlers c).flatMap (atMargin read)
      = atMargin read (registryImport c .javaScript)
        ++ (importedTypes c).flatMap fun n => atMargin read (commentImport c n) := by
  rw [List.mem_cons, List.mem_singleton, not_or] at hfirst
  have hregistrar : atMargin read (commentedRegistrar c) = [] :=
    hread.block _ (by simpa using Ne.symm hfirst.1) (by simpa using Ne.symm hfirst.2)
  simp only [Generated.commentedHandlers, handlersComment, registrarComment, List.flatMap_append,
    List.flatMap_cons, List.flatMap_nil, List.flatMap_map, hread.header, hread.docComment,
    hregistrar, atMargin_blank, List.append_nil, List.nil_append]

/-- **A handler module imports the registry** from the client module, and no other value. -/
theorem valuesImportedIn_handlers (h : c.WellFormed) (flavor : Flavor) :
    valuesImportedIn (c.generate flavor).handlers.text
      = [⟨c.clientImport flavor, c.registryName, c.registryName⟩] := by
  have hread := readsMargin_importsOn? "import \x7b " (by decide)
  rw [valuesImportedIn, hread.filterMap_handlers h]
  cases flavor with
  | typeScript =>
    have htypes : atMargin (importsOn? "import \x7b ") (typeImport c) = [] := by
      simp [typeImport, atMargin, importsOn?, List.dropPrefix?]
    rw [handlersCode, hread.typedHandlers (by decide), importsOn?_registryImport h, htypes]
    rfl
  | javaScript =>
    have htypes : ∀ n, atMargin (importsOn? "import \x7b ") (commentImport c n) = [] := fun n =>
      hread.line (by simp)
    rw [handlersCode, hread.commentedHandlers (by decide), importsOn?_registryImport h,
      List.flatMap_eq_nil_iff.mpr fun n _ => htypes n]
    rfl

/-- **A handler module imports the types** from the client module. -/
theorem typesImportedIn_handlers (h : c.WellFormed) (flavor : Flavor) :
    typesImportedIn flavor (c.generate flavor).handlers.text
      = (importedTypes c).map fun n => ⟨c.clientImport flavor, n, n⟩ := by
  have hwords := isWord_of_mem_importedTypes h
  cases flavor with
  | typeScript =>
    have hread := readsMargin_importsOn? "import type \x7b " (by decide)
    have hvalues : atMargin (importsOn? "import type \x7b ") (registryImport c .typeScript)
        = [] := by
      simp [registryImport, atMargin, importsOn?, List.dropPrefix?]
    have htypes : atMargin (importsOn? "import type \x7b ") (typeImport c)
        = [(importedTypes c).map fun n => ⟨c.clientImport .typeScript, n, n⟩] := by
      rw [typeImport, atMargin, importsOn?_line (c.clientImport .typeScript)
        (by simp [importedTypes]) hwords (by simp)]
      rfl
    rw [typesImportedIn, hread.filterMap_handlers h, handlersCode,
      hread.typedHandlers (by decide), hvalues, htypes, List.nil_append, List.flatten_singleton]
  | javaScript =>
    have hread := readsMargin_importCommentOn?
    have hvalues : atMargin importCommentOn? (registryImport c .javaScript) = [] :=
      hread.line (by simp)
    rw [typesImportedIn, hread.filterMap_handlers h, handlersCode,
      hread.commentedHandlers (by decide), hvalues, List.nil_append, List.map_eq_flatMap]
    refine List.flatMap_congr fun n hn => ?_
    rw [commentImport, atMargin, importCommentOn?_line (c.clientImport .javaScript) (hwords n hn)
      (by simp)]
    rfl

end Modules

/-- **The types that signatures use are declared and imported, and no others.** In both flavors the
placeholders of the client module are, sorted and without repetition, the names that are used, but
for the contract's own. That is declared as the type of its clients, just if it is used. The handler
module imports the type of messages and the types that the client module declares so, under their
own names, and of values only the registry. -/
theorem used_types_declared_and_imported {source : String} {c : Contract}
    (h : Contract.ofSource source = .ok c) (flavor : Flavor) :
    ∃ names own : List String,
      typesDeclaredIn flavor (c.generate flavor).client.text
          = names.map (·, recordType flavor) ++ own.map (·, ownType c flavor)
        ∧ names.Pairwise (· < ·)
        ∧ (∀ n, n ∈ names ↔ c.Uses n ∧ n ≠ c.name)
        ∧ (c.Uses c.name ∧ own = [c.name] ∨ ¬ c.Uses c.name ∧ own = [])
        ∧ typesImportedIn flavor (c.generate flavor).handlers.text
          = ("IntentMessage" :: names ++ own).map (fun n => ⟨c.clientImport flavor, n, n⟩)
        ∧ valuesImportedIn (c.generate flavor).handlers.text
          = [⟨c.clientImport flavor, c.registryName, c.registryName⟩] := by
  have hwf := Contract.wellFormed_of_ofSource h
  refine ⟨c.referencedTypes, selfNames c, typesDeclaredIn_client hwf flavor,
    pairwise_referencedTypes c, fun _ => Contract.mem_referencedTypes_iff, ?_,
    typesImportedIn_handlers hwf flavor, valuesImportedIn_handlers hwf flavor⟩
  rw [← Contract.referencesSelf_iff, selfNames]
  cases c.referencesSelf <;> simp

/-- A contract that uses its own name and another one, inside of other types and next to a name that
the target has. -/
theorem used_types_declared_and_imported_nested :
    ∃ c, Contract.ofSource
        "interface Shop \x7b Promise<sequence<Card?>> open((Shop or long) x, any y); \x7d;" = .ok c
      ∧ ("Card", "Object<string, *>")
        ∈ typesDeclaredIn .javaScript (c.generate .javaScript).client.text
      ∧ ("Shop", "ReturnType<typeof createShopClient>")
        ∈ typesDeclaredIn .javaScript (c.generate .javaScript).client.text
      ∧ ⟨"./shop.client.js", "Card", "Card"⟩
        ∈ typesImportedIn .javaScript (c.generate .javaScript).handlers.text
      ∧ ∀ path, ⟨path, "any", "any"⟩
        ∉ typesImportedIn .javaScript (c.generate .javaScript).handlers.text := by
  have hc : Contract.ofSource
        "interface Shop \x7b Promise<sequence<Card?>> open((Shop or long) x, any y); \x7d;"
      = .ok ⟨"Shop", none, none, [⟨"open",
        [⟨"x", .union [.primitive "Shop", .primitive "long"]⟩, ⟨"y", .primitive "any"⟩],
        some (.generic "Promise" [.generic "sequence" [.nullable (.primitive "Card")]]),
        .ofAttributes []⟩]⟩ := by
    with_unfolding_all rfl
  obtain ⟨names, own, htypes, -, hnames, hown, himports, -⟩ :=
    used_types_declared_and_imported hc .javaScript
  have hcard : "Card" ∈ names := (hnames "Card").mpr (by decide)
  have hany : "any" ∉ names := fun hmem => absurd ((hnames "any").mp hmem) (by decide)
  obtain ⟨-, rfl⟩ | ⟨hself, -⟩ := hown
  · refine ⟨_, hc, ?_, ?_, ?_, fun path => ?_⟩
    · rw [htypes]
      exact List.mem_append_left _ (List.mem_map_of_mem hcard)
    · rw [htypes]
      exact List.mem_append_right _ List.mem_cons_self
    · rw [himports]
      exact List.mem_map.mpr ⟨"Card", by simp [hcard], rfl⟩
    · rw [himports]
      simp [hany]
  · exact absurd (by decide) hself

end IntentContract.Generated
