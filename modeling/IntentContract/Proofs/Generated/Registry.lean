import IntentContract.Proofs.Generated.Lines
import Mathlib.Data.List.TakeDrop

/-!
# The registry in a client module

The client module exports the registry of intents. This module reads it off the text, line by
line as a tool would that knows nothing of the generator, and finds what the contract says
(`registryOf?_client`).

Intents and proofs are arbitrary, and may themselves look like code. They cannot mislead the
reader because it meets them as literals: it takes the whole literal off the text before it
looks for what comes next.
-/

namespace IntentContract.Generated

open Text Code

/-! ## Reading a line -/

/-- A line without its indentation. -/
def unindented (line : List Char) : List Char :=
  line.dropWhile (· = ' ')

/-- A literal or `null` in front of a text, and what follows it. -/
def valueInFront? (cs : List Char) : Option (Option String × List Char) :=
  match Json.lexeme? cs with
  | some (.text (some s), rest) => some (some s, rest)
  | some (.scalar (some .null), rest) => some (none, rest)
  | _ => none

/-- What stands behind the first place where a label is found. -/
def behind? (label : List Char) : List Char → Option (List Char)
  | [] => none
  | c :: cs =>
    match (c :: cs).dropPrefix? label with
    | some rest => some rest
    | none => behind? label cs

/-- The literal or `null` behind a label, and what follows it. -/
def valueBehind? (label : String) (cs : List Char) : Option (Option String × List Char) :=
  (behind? label.toList cs).bind valueInFront?

/-- **The entry on a line of the registry**: the operation up to the first colon, then the
literals behind their labels. -/
def entryOf? (line : List Char) : Option IntentEntry := do
  let (operation, rest) := (unindented line).span (· ≠ ':')
  let (some intent, rest) ← valueBehind? "intent: " rest | none
  let (proof, _) ← valueBehind? "proof: " rest
  return ⟨String.ofList operation, intent, proof⟩

/-- The lines behind the first that begins in a given way, up to one that begins with a closing
brace. -/
def linesBehind (start : List Char) (lines : List (List Char)) : List (List Char) :=
  (lines.dropWhile fun l => !start.isPrefixOf l).tail.takeWhile fun l => l.head? != some '\x7d'

/-- **The registry in the text of a client module**: the entries on the lines behind the one that
opens it. -/
def registryOf? (name : String) (text : String) : Option (List IntentEntry) :=
  (linesBehind ("export const " ++ name ++ "Intents = ").toList (lines text)).mapM entryOf?

theorem valueInFront?_literal (s : String) (rest : List Char) :
    valueInFront? ((Json.literal s).toList ++ rest) = some (some s, rest) := by
  rw [valueInFront?, Json.lexeme?_literal]

theorem valueInFront?_literalOrNull (value : Option String) (rest : List Char) :
    valueInFront? ((literalOrNull value).toList ++ rest) = some (value, rest) := by
  cases value with
  | none => rfl
  | some s => exact valueInFront?_literal s rest

theorem span_word {n : String} (h : isWord n = true) {stop : Char}
    (hstop : Scan.isWordPart stop = false) (rest : List Char) :
    (n.toList ++ stop :: rest).span (· ≠ stop) = (n.toList, stop :: rest) := by
  have hchars : ∀ c ∈ n.toList, decide (c ≠ stop) = true := fun c hc => by
    have hc := isWordPart_of_isWord h c hc
    refine decide_eq_true fun heq => ?_
    rw [heq, hstop] at hc
    cases hc
  have hend : ∀ c ∈ (stop :: rest).head?, decide (c ≠ stop) = false := by simp
  obtain ⟨htake, hdrop⟩ := Scan.span_run hchars hend
  rw [List.span_eq_takeWhile_dropWhile, htake, hdrop]

theorem unindented_lineChars (depth : Nat) (text : String) :
    unindented (lineChars depth text) = unindented text.toList := by
  unfold lineChars
  split
  · next h => rw [h]; rfl
  · rw [unindented, List.dropWhile_append_of_pos (by simp [List.mem_replicate]), unindented]

theorem unindented_word {n : String} (h : isWord n = true) (rest : List Char) :
    unindented (n.toList ++ rest) = n.toList ++ rest := by
  obtain ⟨c, cs, hname, hc, -⟩ := isWord_iff.mp h
  rw [unindented, hname, List.cons_append, List.dropWhile_cons_of_neg]
  intro hblank
  rw [of_decide_eq_true hblank] at hc
  exact absurd hc (by decide)

/-- **An entry is read from its line**, whatever stands between the colon and the first label. -/
theorem entryOf?_line {op : ContractOperation} (h : isWord op.name = true) {text : String}
    (between closing : List Char)
    (htext : text.toList = op.name.toList ++ ':' :: (between ++ ("intent: ".toList
      ++ ((Json.literal op.intent).toList ++ (", proof: ".toList
        ++ ((literalOrNull op.proof).toList ++ closing))))))
    (hbetween : ∀ rest, behind? "intent: ".toList (':' :: (between ++ ("intent: ".toList ++ rest)))
      = some rest) (depth : Nat) :
    entryOf? (lineChars depth text) = some ⟨op.name, op.intent, op.proof⟩ := by
  have hintent : ∀ rest, valueBehind? "intent: "
      (':' :: (between ++ ("intent: ".toList ++ ((Json.literal op.intent).toList ++ rest))))
      = some (some op.intent, rest) := fun rest => by
    rw [valueBehind?, hbetween, Option.bind_some]
    exact valueInFront?_literal op.intent rest
  have hproof : valueBehind? "proof: "
      (", proof: ".toList ++ ((literalOrNull op.proof).toList ++ closing))
      = some (op.proof, closing) := by
    have hbehind : ∀ rest, behind? "proof: ".toList (", proof: ".toList ++ rest) = some rest :=
      fun rest => by simp [behind?, List.dropPrefix?]
    rw [valueBehind?, hbehind, Option.bind_some]
    exact valueInFront?_literalOrNull op.proof closing
  rw [entryOf?, unindented_lineChars, htext, unindented_word h, span_word h (by decide)]
  simp only [hintent, hproof, Option.bind_eq_bind, Option.bind_some, String.ofList_toList]
  rfl

theorem entryOf?_registryEntry {op : ContractOperation} (h : isWord op.name = true)
    (depth : Nat) :
    entryOf? (lineChars depth (registryEntry op)) = some ⟨op.name, op.intent, op.proof⟩ :=
  entryOf?_line h " \x7b ".toList " \x7d,".toList (by simp [registryEntry])
    (fun rest => by simp [behind?, List.dropPrefix?]) depth

theorem entryOf?_frozenEntry {op : ContractOperation} (h : isWord op.name = true)
    (depth : Nat) :
    entryOf? (lineChars depth (frozenEntry op)) = some ⟨op.name, op.intent, op.proof⟩ :=
  entryOf?_line h " Object.freeze(\x7b ".toList " \x7d),".toList (by simp [frozenEntry])
    (fun rest => by simp [behind?, List.dropPrefix?]) depth

/-! ## The registry of a client module -/

theorem linesBehind_eq {start opening closing : List Char} {front body back : List (List Char)}
    (hfront : ∀ l ∈ front, start.isPrefixOf l = false) (hopening : start.isPrefixOf opening = true)
    (hbody : ∀ l ∈ body, l.head? ≠ some '\x7d') (hclosing : closing.head? = some '\x7d') :
    linesBehind start (front ++ opening :: (body ++ closing :: back)) = body := by
  rw [linesBehind, List.dropWhile_append_of_pos fun l hl => by rw [hfront l hl]; rfl,
    List.dropWhile_cons_of_neg (by rw [hopening]; decide), List.tail_cons,
    List.takeWhile_append_of_pos fun l hl => bne_iff_ne.mpr (hbody l hl),
    List.takeWhile_cons_of_neg (by rw [hclosing]; decide), List.append_nil]

/-- Reading what was written for each item gives what was written. -/
theorem mapM_map_eq_some {α β γ : Type} {read : β → Option γ} {write : α → β} {value : α → γ}
    {as : List α} (h : ∀ a ∈ as, read (write a) = some (value a)) :
    (as.map write).mapM read = some (as.map value) := by
  induction as with
  | nil => rfl
  | cons a as ih =>
    rw [List.forall_mem_cons] at h
    rw [List.map_cons, List.mapM_cons, h.1, ih h.2]
    rfl

/-- A line inside a block begins with a blank, if it is not empty. -/
theorem head?_lineChars_succ (depth : Nat) (text : String) {c : Char} (hc : c ≠ ' ') :
    (lineChars (depth + 1) text).head? ≠ some c := by
  unfold lineChars
  split
  · exact nofun
  · rw [Nat.mul_succ, List.replicate_succ, List.cons_append, List.head?_cons]
    exact fun h => hc (Option.some.inj h).symm

theorem isPrefixOf_lineChars_succ (depth : Nat) (text : String) {c : Char} (hc : c ≠ ' ')
    (rest : List Char) : (c :: rest).isPrefixOf (lineChars (depth + 1) text) = false := by
  have hhead := head?_lineChars_succ depth text hc
  cases hl : lineChars (depth + 1) text with
  | nil => rfl
  | cons d ds =>
    rw [hl, List.head?_cons] at hhead
    rw [List.isPrefixOf, beq_false_of_ne fun h => hhead (congrArg some h.symm), Bool.false_and]

theorem forall_mem_linesAllAt {P : List Char → Prop} {depth : Nat} {code : List Code} :
    (∀ l ∈ linesAllAt depth code, P l) ↔ ∀ c ∈ code, ∀ l ∈ linesAt depth c, P l := by
  rw [linesAllAt_eq_flatMap, List.forall_mem_flatMap]

theorem forall_mem_paragraph {P : Code → Prop} {code : List Code} (h : ∀ c ∈ code, P c)
    (hblank : P .blank) : ∀ c ∈ paragraph code, P c := by
  unfold paragraph
  split
  · exact List.forall_mem_nil _
  · exact List.forall_mem_append.mpr ⟨h, List.forall_mem_singleton.mpr hblank⟩

/-- **A block of entries is read back**, if no line in front of it looks like its first one. -/
theorem mapM_entryOf?_linesBehind {start : List Char} {front back : List Code}
    {opening closing : String} {entry : ContractOperation → String} {ops : List ContractOperation}
    (hfront : ∀ c ∈ front, ∀ l ∈ linesAt 0 c, start.isPrefixOf l = false)
    (hopening : start.isPrefixOf opening.toList = true)
    (hclosing : closing.toList.head? = some '\x7d')
    (hentry : ∀ op ∈ ops,
      entryOf? (lineChars 1 (entry op)) = some ⟨op.name, op.intent, op.proof⟩) :
    (linesBehind start (linesAllAt 0 (front
        ++ .block opening (ops.map fun op => .line (entry op)) closing :: back) ++ [[]])).mapM
          entryOf?
      = some (ops.map fun op => ⟨op.name, op.intent, op.proof⟩) := by
  have hlines : linesAllAt 0 (front
        ++ .block opening (ops.map fun op => .line (entry op)) closing :: back) ++ [[]]
      = linesAllAt 0 front ++ opening.toList :: ((ops.map fun op => lineChars 1 (entry op))
        ++ closing.toList :: (linesAllAt 0 back ++ [[]])) := by
    rw [linesAllAt_append, linesAllAt, linesAt, linesAllAt_map_line, lineChars_zero,
      lineChars_zero]
    simp
  rw [hlines, linesBehind_eq (forall_mem_linesAllAt.mpr hfront) hopening ?_ hclosing,
    mapM_map_eq_some hentry]
  exact List.forall_mem_map.mpr fun op _ => head?_lineChars_succ 0 (entry op) (by decide)

section Front

/-! The lines in front of the registry do not look like its first one. -/

variable (rest : List Char)

theorem isPrefixOf_header (c : Contract) (kind : ModuleKind) :
    ∀ code ∈ header c kind, ∀ l ∈ linesAt 0 code,
      ("export const ".toList ++ rest).isPrefixOf l = false := by
  simp [header, linesAt, lineChars_zero, List.isPrefixOf]

theorem isPrefixOf_messageTypes :
    ∀ code ∈ messageTypes, ∀ l ∈ linesAt 0 code,
      ("export const ".toList ++ rest).isPrefixOf l = false := by
  simp [messageTypes, linesAt, linesAllAt, lineChars_zero, isPrefixOf_lineChars_succ,
    List.isPrefixOf]

theorem isPrefixOf_docComment (texts : List String) :
    ∀ code ∈ docComment texts, ∀ l ∈ linesAt 0 code,
      ("export const ".toList ++ rest).isPrefixOf l = false := by
  rw [docComment, List.forall_mem_append, List.forall_mem_cons, List.forall_mem_map]
  simp [linesAt, lineChars_zero, List.isPrefixOf]

theorem isPrefixOf_blank :
    ∀ l ∈ linesAt 0 .blank, ("export const ".toList ++ rest).isPrefixOf l = false := by
  simp [linesAt, List.isPrefixOf]

end Front

/-- **The registry of a client module is that of the contract.** -/
theorem registryOf?_client {c : Contract} (h : c.WellFormed) (flavor : Flavor) :
    registryOf? c.name (c.generate flavor).client.text = some c.intents := by
  have hname := fun op hop => (h.operations op hop).name
  have hstart : ("export const " ++ c.name ++ "Intents = ").toList
      = "export const ".toList ++ (c.name ++ "Intents = ").toList := by
    simp
  rw [registryOf?, lines_client h, hstart]
  cases flavor with
  | typeScript =>
    have hcode : clientCode .typeScript c
        = header c .client ++ messageTypes ++ paragraph (c.referencedTypes.map typePlaceholder)
          ++ typedRegistry c :: ([.blank, clientType c, .blank]
            ++ paragraph (if c.referencesSelf then [selfType c] else []) ++ [typedFactory c]) := by
      simp [clientCode, typedClient]
    rw [hcode]
    refine mapM_entryOf?_linesBehind ?_ ?_ rfl fun op hop => entryOf?_registryEntry (hname op hop) 1
    · rw [List.forall_mem_append, List.forall_mem_append]
      refine ⟨⟨isPrefixOf_header _ c _, isPrefixOf_messageTypes _⟩,
        forall_mem_paragraph (List.forall_mem_map.mpr fun n _ => ?_) (isPrefixOf_blank _)⟩
      simp [typePlaceholder, linesAt, lineChars_zero, List.isPrefixOf]
    · simp [Contract.registryName, List.isPrefixOf]
  | javaScript =>
    have hcode : clientCode .javaScript c
        = header c .client ++ messageComments
            ++ paragraph (c.referencedTypes.map commentPlaceholder)
          ++ frozenRegistry c :: (.blank :: (commentedFactory c
            ++ if c.referencesSelf then [.blank, selfComment c] else [])) := by
      simp [clientCode, commentedClient]
    rw [hcode]
    refine mapM_entryOf?_linesBehind ?_ ?_ rfl fun op hop => entryOf?_frozenEntry (hname op hop) 1
    · rw [List.forall_mem_append, List.forall_mem_append]
      refine ⟨⟨isPrefixOf_header _ c _, ?_⟩,
        forall_mem_paragraph (List.forall_mem_map.mpr fun n _ => ?_) (isPrefixOf_blank _)⟩
      · simp only [messageComments, List.forall_mem_append, List.forall_mem_singleton]
        exact ⟨⟨⟨isPrefixOf_docComment _ _, isPrefixOf_blank _⟩, isPrefixOf_docComment _ _⟩,
          isPrefixOf_blank _⟩
      · simp [commentPlaceholder, linesAt, lineChars_zero, List.isPrefixOf]
    · simp [Contract.registryName, List.isPrefixOf]

end IntentContract.Generated
