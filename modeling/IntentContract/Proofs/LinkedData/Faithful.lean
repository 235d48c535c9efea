import IntentContract.Proofs.Contract.WellFormed
import IntentContract.Proofs.Generated.Bindings
import IntentContract.Proofs.LinkedData.Alignment

/-!
# Reading a description back

The description of a contract is a text of statements, one on each line and each a list of words
with blanks between them. A tool that knows no more than that reads it by cutting it at line breaks
and at blanks. It finds the statements of the contract if no word has a blank in it, and it finds
something else if one has: a blank cuts a word in two, and a line break ends the statement and
begins another, whose words the contract does not know of.

Names are words, and a label stands in a literal. What is left are the intents and the proofs. They
are arbitrary texts, which go into the description as they are, bare or in angle brackets. So the
text says what the contract says – it is **faithful** – just if each of them is **harmless**: it has
no blank, and no angle bracket if it is put between two (`faithful_of_harmless`,
`harmless_of_faithful`).
-/

namespace IntentContract

/-! ## Words between blanks -/

namespace Text

/-- A text without blanks. -/
def Solid (s : String) : Prop :=
  ∀ c ∈ s.toList, isBlank c = false

-- the instance is named, as a search may find one that goes through all characters there are
instance (s : String) : Decidable (Solid s) :=
  List.decidableBAll _ s.toList

@[simp] theorem solid_append {s t : String} : Solid (s ++ t) ↔ Solid s ∧ Solid t := by
  simp only [Solid, String.toList_append, List.forall_mem_append]

/-- **The words of a line**: what stands between blanks. -/
def words (line : List Char) : List String :=
  ((line.splitOnP isBlank).filter (· ≠ [])).map String.ofList

/-- No piece has a character that the text was cut at. -/
theorem forall_of_mem_splitOnP {p : Char → Bool} {cs piece : List Char}
    (h : piece ∈ cs.splitOnP p) : ∀ c ∈ piece, p c = false := by
  induction cs generalizing piece with
  | nil =>
    rw [List.splitOnP_nil, List.mem_singleton] at h
    rw [h]
    exact List.forall_mem_nil _
  | cons c cs ih =>
    rw [List.splitOnP_cons_eq_if_modifyHead] at h
    split at h
    · rcases List.mem_cons.mp h with rfl | h
      · exact List.forall_mem_nil _
      · exact ih h
    · next hc =>
      obtain ⟨first, rest, hpieces⟩ := List.exists_cons_of_ne_nil (List.splitOnP_ne_nil p cs)
      rw [hpieces] at ih h
      rcases List.mem_cons.mp h with rfl | h
      · exact List.forall_mem_cons.mpr ⟨Bool.eq_false_iff.mpr hc, ih List.mem_cons_self⟩
      · exact ih (List.mem_cons_of_mem _ h)

/-- A word has no blanks. -/
theorem solid_of_mem_words {line : List Char} {w : String} (h : w ∈ words line) : Solid w := by
  obtain ⟨piece, hpiece, rfl⟩ := List.mem_map.mp h
  rw [Solid, String.toList_ofList]
  exact forall_of_mem_splitOnP (List.mem_filter.mp hpiece).1

/-- **Words with blanks between them are found again.** -/
theorem words_join {ws : List String} (h : ∀ w ∈ ws, w ≠ "" ∧ Solid w) :
    words (join " " ws).toList = ws := by
  have hpiece : ∀ w : String, w ≠ "" → [w.toList].filter (· ≠ []) = [w.toList] := by simp
  induction ws with
  | nil => rfl
  | cons w ws ih =>
    rw [List.forall_mem_cons] at h
    cases ws with
    | nil =>
      rw [join, words, List.splitOnP_eq_singleton h.1.2, hpiece w h.1.1]
      simp
    | cons v ws =>
      have hjoin : (join " " (w :: v :: ws)).toList
          = w.toList ++ ' ' :: (join " " (v :: ws)).toList := by
        rw [toList_join, row_cons_cons, ← toList_join]
        rfl
      have hrest := ih h.2
      rw [words] at hrest
      rw [hjoin, words, List.splitOnP_append_cons_of_forall_mem h.1.2 ' ' (by decide),
        ← List.singleton_append, List.filter_append, hpiece w h.1.1, List.map_append, hrest]
      simp

/-- No line ends within words. -/
theorem break_not_mem_join {ws : List String} (h : ∀ w ∈ ws, Solid w) :
    '\n' ∉ (join " " ws).toList :=
  not_mem_join (by decide) fun w hw hmem => absurd (h w hw _ hmem) (by decide)

end Text

namespace LinkedData

open Text (Solid words)

/-! ## Reading a description -/

/-- The lines of the header: those in front of the first empty one. -/
def headerLines (text : String) : List (List Char) :=
  (Text.lines text).takeWhile (· ≠ [])

/-- The lines of the body: those behind the first empty one. -/
def bodyLines (text : String) : List (List Char) :=
  ((Text.lines text).dropWhile (· ≠ [])).tail.dropLast

/-- The prefix that a line of the header declares. -/
def declaredPrefix? (line : List Char) : Option String :=
  (line.dropPrefix? "@prefix ".toList).map fun rest => String.ofList (rest.takeWhile (· ≠ ':'))

/-- The prefixes that the header of a description declares. -/
def declaredPrefixes (text : String) : List String :=
  (headerLines text).filterMap declaredPrefix?

/-- **The statements of a description**, as they are read line by line and word by word. -/
def statementsIn (text : String) : List Statement :=
  (bodyLines text).map words

/-- No angle bracket occurs in a text. -/
def Unbracketed (s : String) : Prop :=
  ∀ c ∈ s.toList, c ≠ '<' ∧ c ≠ '>'

instance (s : String) : Decidable (Unbracketed s) :=
  List.decidableBAll _ s.toList

/-- The words that stand in statements between terms. -/
def marks : List String :=
  ["a", ";", "."]

/-- **A word that may stand in a statement**: one of the three marks, an address in brackets, a
label, or a name under a prefix that is declared. -/
inductive Admissible (declared : List String) : String → Prop where
  | mark {w : String} (h : w ∈ marks) : Admissible declared w
  | address {v : String} (h : Unbracketed v) : Admissible declared ("<" ++ v ++ ">")
  | label (s : String) : Admissible declared (Json.literal s)
  | compact {name : String} (back : String) (hname : ':' ∉ name.toList) (h : name ∈ declared) :
      Admissible declared (name ++ ":" ++ back)

/-- **A text that says what a contract says**, and nothing else: a line for the class, one for each
operation and one for each proof that is declared, and on each the words of its statement. -/
structure Faithful (c : Contract) (text : String) : Prop where
  lines : (bodyLines text).length
    = 1 + c.operations.length + (c.operations.filterMap (·.proof)).length
  statements : statementsIn text = statements PrefixTable.usual c
  words : ∀ s ∈ statementsIn text, ∀ w ∈ s, Admissible (declaredPrefixes text) w

/-- **A value that does no harm** where it is written as a term. -/
def Harmless (t : PrefixTable) (v : String) : Prop :=
  Solid v ∧ (t.split? v = none → Unbracketed v)

instance (t : PrefixTable) (v : String) : Decidable (Harmless t v) :=
  inferInstanceAs (Decidable (_ ∧ _))

/-! ## The lines of a description -/

theorem toList_statementsText (ss : List Statement) :
    (statementsText ss).toList
      = (ss.map fun s => (Text.join " " s).toList).flatMap (· ++ ['\n']) := by
  induction ss with
  | nil => rfl
  | cons s ss ih =>
    rw [statementsText] at ih
    rw [statementsText, List.map_cons, String.join_cons, String.toList_append, ih]
    simp

/-- Statements without line breaks are on lines of their own. -/
theorem lines_statementsText_append {ss : List Statement}
    (h : ∀ s ∈ ss, '\n' ∉ (Text.join " " s).toList) (rest : String) :
    Text.lines (statementsText ss ++ rest)
      = (ss.map fun s => (Text.join " " s).toList) ++ Text.lines rest := by
  rw [Text.lines, String.toList_append, toList_statementsText, Text.lines]
  induction ss with
  | nil => rfl
  | cons s ss ih =>
    rw [List.forall_mem_cons] at h
    rw [List.map_cons, List.flatMap_cons, List.append_assoc, List.append_assoc,
      List.singleton_append, List.splitOn_append_cons_self_of_not_mem h.1, ih h.2, List.cons_append]

/-- The usual table has the core prefixes. -/
theorem completed_usual : PrefixTable.usual.completed = PrefixTable.usual := by
  decide

/-- What the usual table binds has no blanks, and its prefixes no colon. -/
theorem solid_of_mem_usual :
    ∀ e ∈ PrefixTable.usual.entries, Solid e.1 ∧ Solid e.2 ∧ ':' ∉ e.1.toList := by
  decide +kernel

/-- A declaration is read as the prefix that it binds. -/
theorem declaredPrefix?_declaration {name iri : String} (h : ':' ∉ name.toList) :
    declaredPrefix? (Text.join " " ["@prefix", name ++ ":", "<" ++ iri ++ ">", "."]).toList
      = some name := by
  have hline : (Text.join " " ["@prefix", name ++ ":", "<" ++ iri ++ ">", "."]).toList
      = "@prefix ".toList ++ (name.toList ++ ':' :: (" <" ++ iri ++ "> .").toList) := by
    simp [Text.join]
  have hname : ∀ c ∈ name.toList, decide (c ≠ ':') = true := fun c hc =>
    decide_eq_true fun heq => h (heq ▸ hc)
  rw [hline, declaredPrefix?, Generated.dropPrefix?_append, Option.map_some,
    List.takeWhile_append_of_pos hname, List.takeWhile_cons_of_neg (by simp), List.append_nil,
    String.ofList_toList]

/-- The parts of a description: the lines of the header, and what its body is made of. -/
theorem lines_turtle (c : Contract) :
    headerLines (turtle .usual c)
        = (declarations PrefixTable.usual).map (fun s => (Text.join " " s).toList)
      ∧ bodyLines (turtle .usual c)
        = (Text.lines (statementsText (statements PrefixTable.usual c))).dropLast := by
  have honeLine : ∀ s ∈ declarations PrefixTable.usual, '\n' ∉ (Text.join " " s).toList := by
    refine List.forall_mem_map.mpr fun e he => Text.break_not_mem_join ?_
    have hmarks : Solid "@prefix" ∧ Solid ":" ∧ Solid "<" ∧ Solid ">" ∧ Solid "." := by decide
    simp [hmarks, solid_of_mem_usual e he]
  have hnonempty : ∀ l ∈ (declarations PrefixTable.usual).map (fun s => (Text.join " " s).toList),
      decide (l ≠ []) = true := by
    rw [declarations, List.map_map, List.forall_mem_map]
    simp [Text.join]
  have hbreak : ∀ s : String, Text.lines ("\n" ++ s) = [] :: Text.lines s := fun s => by
    rw [Text.lines, String.toList_append]
    exact List.splitOn_append_cons_self_of_not_mem List.not_mem_nil s.toList
  have hlines : Text.lines (turtle .usual c)
      = (declarations PrefixTable.usual).map (fun s => (Text.join " " s).toList)
        ++ [] :: Text.lines (statementsText (statements PrefixTable.usual c)) := by
    rw [turtle, completed_usual, String.append_assoc, lines_statementsText_append honeLine, hbreak]
  constructor
  · rw [headerLines, hlines, List.takeWhile_append_of_pos hnonempty]
    simp
  · rw [bodyLines, hlines, List.dropWhile_append_of_pos hnonempty]
    simp

/-- The prefixes of the usual table are declared, and no others. -/
theorem declaredPrefixes_turtle (c : Contract) :
    declaredPrefixes (turtle .usual c) = PrefixTable.usual.entries.map Prod.fst := by
  rw [declaredPrefixes, (lines_turtle c).1, declarations, List.map_map, List.filterMap_map,
    ← List.filterMap_eq_map']
  exact List.filterMap_congr fun e he => declaredPrefix?_declaration (solid_of_mem_usual e he).2.2

/-! ## Terms -/

section Term

variable {t : PrefixTable} {v : String}

theorem term_of_split? (h : (t.split? v).isSome = true) : term t v = v := by
  have habsolute : isAbsolute v = false := by
    refine Bool.eq_false_iff.mpr fun habsolute => ?_
    rw [split?_of_isAbsolute t habsolute] at h
    cases h
  simp [term, habsolute, h]

theorem term_of_not_split? (h : t.split? v = none) : term t v = "<" ++ v ++ ">" := by
  simp [term, h]

/-- Brackets bring no blanks. -/
theorem solid_term_iff : Solid (term t v) ↔ Solid v := by
  cases h : t.split? v with
  | none =>
    have hopening : Solid "<" := by decide
    have hclosing : Solid ">" := by decide
    simp [term_of_not_split? h, hopening, hclosing]
  | some parts => rw [term_of_split? (by simp [h])]

theorem term_ne_empty (t : PrefixTable) (v : String) : term t v ≠ "" := by
  obtain ⟨hterm, name, back, iri, hv, -⟩ | ⟨hterm, -⟩ := term_eq_or t v
  · rw [hterm, hv]
    simp
  · rw [hterm]
    simp

/-- **A harmless value is an admissible term**, if the prefixes that are bound are declared. -/
theorem admissible_term {declared : List String}
    (hdeclared : ∀ name iri, t.get? name = some iri → name ∈ declared) (h : Harmless t v) :
    Admissible declared (term t v) := by
  cases hsplit : t.split? v with
  | none =>
    rw [term_of_not_split? hsplit]
    exact .address (h.2 hsplit)
  | some parts =>
    obtain ⟨name, hv, hname, hiri⟩ := PrefixTable.exists_prefix_of_split? hsplit
    rw [term_of_split? (by simp [hsplit]), hv]
    exact .compact _ hname (hdeclared name _ hiri)

/-- **An admissible term without blanks is that of a harmless value**, if no prefix that is
declared begins with a bracket. -/
theorem harmless_of_admissible {declared : List String}
    (hdeclared : ∀ name ∈ declared, name.toList.head? ≠ some '<')
    (hsolid : Solid (term t v)) (h : Admissible declared (term t v)) : Harmless t v := by
  refine ⟨solid_term_iff.mp hsolid, fun hsplit => ?_⟩
  rw [term_of_not_split? hsplit] at h
  generalize hw : "<" ++ v ++ ">" = w at h
  have hhead : w.toList.head? = some '<' := by
    rw [← hw]
    simp
  cases h with
  | mark hmark =>
    have hmarks : ∀ w ∈ marks, w.toList.head? ≠ some '<' := by decide
    exact absurd hhead (hmarks w hmark)
  | address hv =>
    have hsame := congrArg String.toList hw
    simp only [String.toList_append, List.append_assoc] at hsame
    rw [String.toList_inj.mp (List.append_cancel_right (List.append_cancel_left hsame))]
    exact hv
  | label s =>
    rw [Json.toList_literal, List.head?_cons] at hhead
    exact absurd hhead (by decide)
  | @compact name back hname hmem =>
    have hname := hdeclared name hmem
    cases hchars : name.toList with
    | nil => simp [hchars] at hhead
    | cons c cs =>
      rw [hchars] at hname
      simp only [String.toList_append, hchars, List.cons_append, List.head?_cons] at hhead
      exact absurd hhead hname

/-- The characters of identifiers that are made from names. -/
def isNameChar (c : Char) : Bool :=
  Scan.isWordPart c || c = '.' || c = ':'

theorem all_isNameChar_of_isWord {n : String} (h : isWord n = true) :
    n.toList.all isNameChar = true :=
  List.all_eq_true.mpr fun c hc => by simp [isNameChar, isWordPart_of_isWord h c hc]

/-- What is made from names does no harm. -/
theorem harmless_of_all (h : v.toList.all isNameChar = true) : Harmless t v := by
  have hchar : ∀ c ∈ v.toList, Scan.isWordPart c = true ∨ c = '.' ∨ c = ':' := fun c hc => by
    simpa [isNameChar, or_assoc] using List.all_eq_true.mp h c hc
  have hsolid : Solid v := fun c hc => by
    rcases hchar c hc with hword | rfl | rfl
    · exact (Scan.visible_of_isWordPart hword).1
    · decide
    · decide
  refine ⟨hsolid, fun _ c hc => ?_⟩
  rcases hchar c hc with hword | rfl | rfl
  · constructor <;> rintro rfl <;> exact absurd hword (by decide)
  · decide
  · decide

end Term

/-! ## Names and labels -/

/-- A word in quotes has no blanks. -/
theorem solid_literal {n : String} (h : isWord n = true) : Solid (Json.literal n) := by
  have hchars : ∀ c ∈ n.toList, ∀ d ∈ Json.escapeChar c, Text.isBlank d = false := fun c hc => by
    have hword := isWordPart_of_isWord h c hc
    rw [Generated.escapeChar_of_isWordPart hword, List.forall_mem_singleton]
    exact (Scan.visible_of_isWordPart hword).1
  have hquote : Text.isBlank '"' = false := by decide
  rw [Solid, Json.toList_literal, List.forall_mem_cons, List.forall_mem_append,
    List.forall_mem_singleton, Json.escape, List.forall_mem_flatMap]
  exact ⟨hquote, hchars, hquote⟩

section Description

variable {c : Contract} {op : ContractOperation}

theorem harmless_classId {t : PrefixTable} (h : isWord c.name = true) :
    Harmless t (classId c) := by
  refine harmless_of_all ?_
  rw [classId, String.toList_append, List.all_append, all_isNameChar_of_isWord h]
  decide

/-- An operation is identified by its intent, or by names. -/
theorem harmless_operationId {t : PrefixTable} (hc : isWord c.name = true)
    (hop : isWord op.name = true) (h : Harmless t op.intent) : Harmless t (operationId c op) := by
  unfold operationId
  split
  · refine harmless_of_all ?_
    rw [String.toList_append, String.toList_append, List.all_append, List.all_append,
      all_isNameChar_of_isWord hc, all_isNameChar_of_isWord hop]
    decide
  · exact h

/-- **What is said of every word of a description**, from what is said of marks, of labels and of
terms. The words of the vocabulary are terms, as their prefixes are bound. -/
theorem forall_words {P : String → Prop} (hc : c.WellFormed) (hmark : ∀ w ∈ marks, P w)
    (hlabel : ∀ n, isWord n = true → P (Json.literal n))
    (hterm : ∀ v, Harmless .usual v → P (term .usual v))
    (h : ∀ op ∈ c.operations, ∀ v ∈ op.intent :: op.proof.toList, Harmless .usual v) :
    ∀ s ∈ statements .usual c, ∀ w ∈ s, P w := by
  have hvocabulary : ∀ w ∈ ["owl:Class", "rdfs:label", "agent:Intent", "agent:operationOf",
      "agent:requiresProof"], P w := fun w hw => by
    have hcompact : ∀ w ∈ ["owl:Class", "rdfs:label", "agent:Intent", "agent:operationOf",
        "agent:requiresProof"], Harmless .usual w ∧ (PrefixTable.usual.split? w).isSome = true := by
      decide
    rw [← term_of_split? (hcompact w hw).2]
    exact hterm w (hcompact w hw).1
  have hclass := hterm _ (harmless_classId hc.name)
  have hclassLabel := hlabel _ hc.name
  simp only [marks, List.forall_mem_cons, List.not_mem_nil, IsEmpty.forall_iff, implies_true,
    and_true] at hmark hvocabulary
  rw [statements, List.forall_mem_cons, List.forall_mem_flatMap]
  refine ⟨by simp [classStatement, *], fun op hop => ?_⟩
  have hname := (hc.operations op hop).name
  have hvalues := h op hop
  rw [List.forall_mem_cons] at hvalues
  have hid := hterm _ (harmless_operationId hc.name hname hvalues.1)
  have hlabel := hlabel _ hname
  rw [operationStatements, List.forall_mem_cons]
  refine ⟨by simp [*], ?_⟩
  cases hproof : op.proof with
  | none => exact List.forall_mem_nil _
  | some v =>
    have hv := hterm v (hvalues.2 v (by simp [hproof]))
    simp [*]

/-! ## The text and the values in it -/

/-- There is a statement for the class, one for each operation and one for each proof. -/
theorem length_statements (t : PrefixTable) (c : Contract) :
    (statements t c).length
      = 1 + c.operations.length + (c.operations.filterMap (·.proof)).length := by
  have hoperations : ∀ ops : List ContractOperation, (ops.flatMap (operationStatements t c)).length
      = ops.length + (ops.filterMap (·.proof)).length := fun ops => by
    induction ops with
    | nil => rfl
    | cons op ops ih =>
      cases hproof : op.proof <;> simp [operationStatements, hproof, ih] <;> omega
  rw [statements, List.length_cons, hoperations]
  omega

/-- **Harmless values are kept**: the text says what the contract says. -/
theorem faithful_of_harmless (hc : c.WellFormed)
    (h : ∀ op ∈ c.operations, ∀ v ∈ op.intent :: op.proof.toList, Harmless .usual v) :
    Faithful c (turtle .usual c) := by
  have hwords : ∀ s ∈ statements .usual c, ∀ w ∈ s, w ≠ "" ∧ Solid w :=
    forall_words hc (by decide) (fun n hn => ⟨by simp [Json.literal], solid_literal hn⟩)
      (fun v hv => ⟨term_ne_empty .usual v, solid_term_iff.mpr hv.1⟩) h
  have hlines : bodyLines (turtle .usual c)
      = (statements .usual c).map fun s => (Text.join " " s).toList := by
    have honeLine : ∀ s ∈ statements .usual c, '\n' ∉ (Text.join " " s).toList := fun s hs =>
      Text.break_not_mem_join fun w hw => (hwords s hs w hw).2
    have hall := lines_statementsText_append honeLine ""
    rw [String.append_empty] at hall
    rw [(lines_turtle c).2, hall]
    exact List.dropLast_concat
  have hstatements : statementsIn (turtle .usual c) = statements .usual c := by
    rw [statementsIn, hlines, List.map_map]
    exact (List.map_congr_left fun s hs => Text.words_join (hwords s hs)).trans (List.map_id' _)
  refine ⟨?_, ?_, ?_⟩
  · rw [hlines, List.length_map, length_statements]
  · exact hstatements
  · rw [hstatements, declaredPrefixes_turtle]
    refine forall_words hc (fun w hw => .mark hw) (fun n _ => .label n) (fun v hv => ?_) h
    exact admissible_term (fun name iri hiri =>
      List.mem_map_of_mem (Keyed.mem_of_get? hiri)) hv

/-- **Only harmless values are kept.** -/
theorem harmless_of_faithful (h : Faithful c (turtle .usual c)) :
    ∀ op ∈ c.operations, ∀ v ∈ op.intent :: op.proof.toList, Harmless .usual v := by
  have hterm : ∀ v, (∃ s ∈ statements .usual c, term .usual v ∈ s) → Harmless .usual v := by
    rintro v ⟨s, hs, hv⟩
    rw [← h.statements] at hs
    obtain ⟨line, -, hline⟩ := List.mem_map.mp hs
    refine harmless_of_admissible ?_ (Text.solid_of_mem_words (hline ▸ hv)) (h.words s hs _ hv)
    rw [declaredPrefixes_turtle]
    decide
  intro op hop v hv
  have hmem : ∀ s ∈ operationStatements .usual c op, s ∈ statements .usual c := fun s hs =>
    List.mem_cons_of_mem _ (List.mem_flatMap_of_mem hop hs)
  rcases List.mem_cons.mp hv with rfl | hv
  · by_cases hempty : op.intent = ""
    · -- nothing is written of an intent that is missing
      rw [hempty]
      decide
    · refine hterm _ ⟨_, hmem _ List.mem_cons_self, ?_⟩
      rw [operationId, if_neg hempty]
      exact List.mem_cons_self
  · have hproof := Option.mem_toList.mp hv
    refine hterm _ ⟨[term .usual (operationId c op), "agent:requiresProof", term .usual v, "."],
      hmem _ ?_, by simp⟩
    simp [operationStatements, hproof]

end Description

/-- **A description says what its contract says if every intent and every proof is harmless, and
only then.** -/
theorem turtle_faithful_iff {source : String} {c : Contract}
    (h : Contract.ofSource source = .ok c) :
    Faithful c (turtle .usual c)
      ↔ ∀ op ∈ c.operations, ∀ v ∈ op.intent :: op.proof.toList, Harmless .usual v :=
  ⟨harmless_of_faithful, faithful_of_harmless (Contract.wellFormed_of_ofSource h)⟩

/-- An intent under a prefix that is not bound, and a proof under one that is. -/
theorem turtle_faithful_unbound :
    ∃ c, Contract.ofSource
        "interface V \x7b [Intent=\"ext:Pay\", Proof=\"proof:P\"] void f(); void g(); \x7d;" = .ok c
      ∧ Faithful c (turtle .usual c) := by
  have hc : Contract.ofSource
        "interface V \x7b [Intent=\"ext:Pay\", Proof=\"proof:P\"] void f(); void g(); \x7d;"
      = .ok ⟨"V", none, none,
        [⟨"f", [], some (.primitive "void"),
            ⟨none, none, some "ext:Pay", some "proof:P", false, none⟩⟩,
          ⟨"g", [], some (.primitive "void"), .ofAttributes []⟩]⟩ := by
    with_unfolding_all rfl
  exact ⟨_, hc, (turtle_faithful_iff hc).mpr (by decide)⟩

/-- **A line break in an intent begins a statement of its own**, here about a name under a prefix
that nothing declares. -/
theorem turtle_not_faithful_break :
    ∃ c, Contract.ofSource "interface I \x7b [Intent=\"agent:a .\nx:b\"] void f(); \x7d;" = .ok c
      ∧ statementsIn (turtle .usual c)
        = [["agent:I", "a", "owl:Class", ";", "rdfs:label", "\"I\"", "."],
          ["agent:a", "."],
          ["x:b", "a", "agent:Intent", ";", "rdfs:label", "\"f\"", ";", "agent:operationOf",
            "agent:I", "."]]
      ∧ "x" ∉ declaredPrefixes (turtle .usual c)
      ∧ ¬ Faithful c (turtle .usual c) := by
  have hc : Contract.ofSource "interface I \x7b [Intent=\"agent:a .\nx:b\"] void f(); \x7d;"
      = .ok ⟨"I", none, none, [⟨"f", [], some (.primitive "void"),
        ⟨none, none, some "agent:a .\nx:b", none, false, none⟩⟩]⟩ := by
    with_unfolding_all rfl
  refine ⟨_, hc, ?_, ?_, fun h => ?_⟩
  · rw [statementsIn, (lines_turtle _).2]
    decide +kernel
  · rw [declaredPrefixes_turtle]
    decide
  · exact absurd (harmless_of_faithful h) (by decide)

end LinkedData

end IntentContract
