import IntentContract.Proofs.Generated.Bindings
import IntentContract.Proofs.Generated.Declarations

/-!
# Parameters and the names around them

A method of a client has the operation's parameters, under their own names, and in its body it
refers to names from around it: to the transport that the client was made with, and to the registry.
A parameter of the same name **captures** such a reference. The methods of the handlers' type have a
parameter of their own, the message, behind those of the operation.

This module reads the methods off the text of both modules, with the names that their bodies take
something off, and finds them as the contract has them (`stubsIn_client`,
`handlerMethods_handlers`). So nothing is captured just if no parameter is called `transport` or has
the name of the registry, and a handler's parameters are distinct just if none of the operation's
is called `message`.

A method is found by the line that sends its message. The line in front of that is its signature,
and the lines behind it, up to the closing brace, are what it sends. Every other line of the module
is **silent**: it sends nothing, whatever operations and types are called.
-/

namespace IntentContract.Generated

open Text Code

/-! ## Reading methods -/

/-- The word that a text begins with, if it does. -/
def firstWord? (cs : List Char) : Option String :=
  match cs.takeWhile Scan.isWordPart with
  | [] => none
  | c :: word => some (String.ofList (c :: word))

/-- The names in a list of parameters: the words behind commas. -/
def parameterNamesIn (cs : List Char) : List String :=
  ((cs.splitOn ',').map unindented).filterMap firstWord?

/-- **The name and the parameters of the method** whose signature is on a line. -/
def signatureOn (line : List Char) : String × List String :=
  let (name, rest) := (unindented line).span (· ≠ '(')
  (String.ofList name, parameterNamesIn (rest.tail.takeWhile (· ≠ ')')))

/-- The name that a line sends a message through. -/
def receiver? (line : List Char) : Option String := do
  let call ← (unindented line).dropPrefix? "return ".toList
  if call.dropWhile Scan.isWordPart = ".send(\x7b".toList then
    some (String.ofList (call.takeWhile Scan.isWordPart))
  else none

/-- The name that a field takes its value off: one behind the colon, in front of a point. -/
def reference? (line : List Char) : Option String :=
  let value := ((unindented line).dropWhile (· ≠ ':')).drop 2
  if (value.dropWhile Scan.isWordPart).head? = some '.' then
    some (String.ofList (value.takeWhile Scan.isWordPart))
  else none

/-- **A method of a client**: its name, its parameters, and the names from around it that its body
refers to. -/
structure Stub where
  name : String
  parameters : List String
  references : List String
  deriving DecidableEq

/-- A parameter with the name of something that the body refers to. -/
def Stub.Captures (s : Stub) : Prop :=
  ∃ n ∈ s.parameters, n ∈ s.references

instance (s : Stub) : Decidable s.Captures :=
  inferInstanceAs (Decidable (∃ n ∈ s.parameters, n ∈ s.references))

/-- The methods on a list of lines, of which `before` is the line in front. -/
def stubsFrom (before : List Char) : List (List Char) → List Stub
  | [] => []
  | l :: rest =>
    match receiver? l with
    | none => stubsFrom l rest
    | some receiver =>
      let (name, parameters) := signatureOn before
      let fields := rest.takeWhile fun l => (unindented l).head? != some '\x7d'
      ⟨name, parameters, receiver :: fields.filterMap reference?⟩ :: stubsFrom l rest

/-- **The methods in the text of a client module.** -/
def stubsIn (text : String) : List Stub :=
  stubsFrom [] (lines text)

/-- **The methods of the handlers' type** in the text of a handler module, with their parameters. -/
def handlerMethods (name : String) (text : String) : List (String × List String) :=
  (linesBehind ("export interface " ++ name ++ "Handlers \x7b").toList (lines text)).map signatureOn

/-! ## Parameters -/

/-- **A text that declares a parameter**: its name in front, and nothing that ends it early. -/
structure DeclaresParameter (text name : String) : Prop where
  isWord : isWord name = true
  name : ∃ more, text.toList = name.toList ++ more ∧ ∀ c ∈ more.head?, Scan.isWordPart c = false
  comma : ',' ∉ text.toList
  parenthesis : ')' ∉ text.toList

theorem DeclaresParameter.firstWord?_eq {text name : String} (h : DeclaresParameter text name) :
    firstWord? (unindented text.toList) = some name := by
  obtain ⟨more, htext, hmore⟩ := h.name
  obtain ⟨c, cs, hchars, -⟩ := isWord_iff.mp h.isWord
  have hword := (Scan.span_run (isWordPart_of_isWord h.isWord) hmore).1
  rw [htext, unindented_word h.isWord, firstWord?, hword, hchars]
  show some (String.ofList (c :: cs)) = some name
  rw [← hchars, String.ofList_toList]

section Signature

variable {α : Type} {text name : α → String} {as : List α}

/-- **Parameters in a row are found again.** -/
theorem parameterNamesIn_join (h : ∀ a ∈ as, DeclaresParameter (text a) (name a)) :
    parameterNamesIn (join ", " (as.map text)).toList = as.map name := by
  cases as with
  | nil => rfl
  | cons a as =>
    have hne : (a :: as).map text ≠ [] := by simp
    have hcomma : ∀ s ∈ (a :: as).map text, ',' ∉ s.toList :=
      List.forall_mem_map.mpr fun b hb => (h b hb).comma
    rw [parameterNamesIn, map_unindented_splitOn_join hne hcomma, List.map_map,
      List.filterMap_map, ← List.filterMap_eq_map']
    exact List.filterMap_congr fun b hb => (h b hb).firstWord?_eq

/-- **A signature is read back.** -/
theorem signatureOn_line {n : String} (hname : isWord n = true)
    (h : ∀ a ∈ as, DeclaresParameter (text a) (name a)) (depth : Nat) (more : String) :
    signatureOn (lineChars depth (n ++ "(" ++ join ", " (as.map text) ++ ")" ++ more))
      = (n, as.map name) := by
  have hline : (n ++ "(" ++ join ", " (as.map text) ++ ")" ++ more).toList
      = n.toList ++ '(' :: ((join ", " (as.map text)).toList ++ ')' :: more.toList) := by
    simp
  have hopen : ')' ∉ (join ", " (as.map text)).toList :=
    not_mem_join (by decide) (List.forall_mem_map.mpr fun a ha => (h a ha).parenthesis)
  have hparameters : ∀ c ∈ (join ", " (as.map text)).toList, decide (c ≠ ')') = true :=
    fun c hc => decide_eq_true fun heq => hopen (heq ▸ hc)
  rw [signatureOn, unindented_lineChars, hline, unindented_word hname,
    span_word hname (by decide)]
  simp only [List.tail_cons, List.takeWhile_append_of_pos hparameters]
  rw [List.takeWhile_cons_of_neg (by simp), List.append_nil, parameterNamesIn_join h,
    String.ofList_toList]

end Signature

/-- A mark that neither names nor types have is not in a parameter with its type. -/
theorem not_mem_typedParameter {p : Parameter} (h : p.WellFormed) {mark : Char}
    (hword : Scan.isWordPart mark = false) (htype : TypeItem.isTypeChar mark = false)
    (hbetween : mark ∉ ": ".toList) : mark ∉ (typedParameter p).toList := by
  have hname : mark ∉ p.name.toList := fun hmem => by
    rw [isWordPart_of_isWord h.name _ hmem] at hword
    cases hword
  have htext : mark ∉ p.type.text.toList := fun hmem => by
    rw [h.type.isTypeChar_text _ hmem] at htype
    cases htype
  simp only [typedParameter, String.toList_append, List.mem_append, hname, hbetween, htext,
    or_false, not_false_eq_true]

theorem declaresParameter_typed {p : Parameter} (h : p.WellFormed) :
    DeclaresParameter (typedParameter p) p.name where
  isWord := h.name
  name := ⟨(": " ++ p.type.text).toList, by simp [typedParameter], by simp +decide⟩
  comma := not_mem_typedParameter h (by decide) (by decide) (by decide)
  parenthesis := not_mem_typedParameter h (by decide) (by decide) (by decide)

theorem declaresParameter_name {n : String} (h : isWord n = true) : DeclaresParameter n n where
  isWord := h
  name := ⟨[], (List.append_nil _).symm, by simp⟩
  comma hmem := absurd (isWordPart_of_isWord h _ hmem) (by decide)
  parenthesis hmem := absurd (isWordPart_of_isWord h _ hmem) (by decide)

/-! ## Lines that send nothing -/

theorem receiver?_lineChars (depth : Nat) (text : String) :
    receiver? (lineChars depth text) = receiver? text.toList := by
  rw [receiver?, unindented_lineChars, ← receiver?]

theorem receiver?_of_head? {line : List Char} (h : (unindented line).head? ≠ some 'r') :
    receiver? line = none := by
  have hdrop : (unindented line).dropPrefix? "return ".toList = none := dropPrefix?_of_head? h _
  rw [receiver?, hdrop]
  rfl

/-- **A line that begins with a word and a mark sends nothing**, also if the word is `return`. -/
theorem receiver?_word {n : String} (h : isWord n = true) {mark : Char}
    (hmark : Scan.isWordPart mark = false) (hblank : mark ≠ ' ') (rest : List Char) :
    receiver? (n.toList ++ mark :: rest) = none := by
  have hdrop : (n.toList ++ mark :: rest).dropPrefix? "return ".toList = none := by
    refine Option.eq_none_iff_forall_ne_some.mpr fun more hmore => ?_
    obtain ⟨front, hfront, hbeq⟩ := List.dropPrefix?_eq_some_iff.mp hmore
    rw [eq_of_beq hbeq] at hfront
    -- the word ends at the mark on one side, and at a blank on the other
    have hend : ∀ c ∈ (mark :: rest).head?, Scan.isWordPart c = false := by simpa using hmark
    have hstop := (Scan.span_run (isWordPart_of_isWord h) hend).2
    have hreturn : ("return ".toList ++ more).dropWhile Scan.isWordPart = ' ' :: more := rfl
    rw [hfront, hreturn] at hstop
    exact hblank (List.cons.inj hstop).1.symm
  rw [receiver?, unindented_word h, hdrop]
  rfl

/-- **Code that sends nothing**, wherever it stands. -/
def Silent (code : Code) : Prop :=
  ∀ depth, ∀ l ∈ linesAt depth code, receiver? l = none

theorem silent_blank : Silent .blank := fun depth => by
  rw [linesAt, List.forall_mem_singleton]
  exact receiver?_of_head? (by simp [unindented])

theorem silent_line {text : String} (h : receiver? text.toList = none) : Silent (.line text) :=
  fun depth => by
    rw [linesAt, List.forall_mem_singleton, receiver?_lineChars, h]

theorem silent_block {opening closing : String} {body : List Code}
    (hopening : receiver? opening.toList = none) (hbody : ∀ code ∈ body, Silent code)
    (hclosing : receiver? closing.toList = none) : Silent (.block opening body closing) :=
  fun depth => by
    rw [linesAt, List.forall_mem_cons, List.forall_mem_append, List.forall_mem_singleton,
      forall_mem_linesAllAt, receiver?_lineChars, receiver?_lineChars]
    exact ⟨hopening, fun code hcode => hbody code hcode (depth + 1), hclosing⟩

theorem head?_unindented {text : String} {c : Char} (htext : text.toList.head? = some c)
    (hblank : c ≠ ' ') : (unindented text.toList).head? = some c := by
  cases hchars : text.toList with
  | nil =>
    rw [hchars] at htext
    cases htext
  | cons d ds =>
    rw [hchars, List.head?_cons] at htext
    obtain rfl := Option.some.inj htext
    rw [unindented, List.dropWhile_cons_of_neg (by simpa using hblank), List.head?_cons]

/-- A line that begins otherwise than one that sends. -/
theorem receiver?_of_first {text : String} {c : Char} (htext : text.toList.head? = some c)
    (hc : c ≠ ' ' ∧ c ≠ 'r') : receiver? text.toList = none := by
  refine receiver?_of_head? ?_
  rw [head?_unindented htext hc.1]
  exact fun heq => hc.2 (Option.some.inj heq)

theorem silent_of_first {text : String} {c : Char} (htext : text.toList.head? = some c)
    (hc : c ≠ ' ' ∧ c ≠ 'r') : Silent (.line text) :=
  silent_line (receiver?_of_first htext hc)

/-! ## A method -/

/-- **The method that an operation should have.** -/
def stubFor (c : Contract) (op : ContractOperation) : Stub :=
  ⟨op.name, op.parameterNames, ["transport", c.registryName, c.registryName]⟩

theorem captures_stubFor {c : Contract} {op : ContractOperation} :
    (stubFor c op).Captures
      ↔ "transport" ∈ op.parameterNames ∨ c.registryName ∈ op.parameterNames := by
  simp [Stub.Captures, stubFor, and_or_left, exists_or]

/-- Silent lines are passed over. -/
theorem stubsFrom_append {front : List (List Char)} (h : ∀ l ∈ front, receiver? l = none)
    (before : List Char) (rest : List (List Char)) :
    stubsFrom before (front ++ rest) = stubsFrom (front.getLastD before) rest := by
  induction front generalizing before with
  | nil => rfl
  | cons l front ih =>
    rw [List.forall_mem_cons] at h
    rw [List.cons_append, stubsFrom, h.1, ih h.2, List.getLastD_cons]

/-- A line that sends is read with the one in front of it and those behind it. -/
theorem stubsFrom_of_receiver? {l : List Char} {receiver : String}
    (h : receiver? l = some receiver) (before : List Char) (rest : List (List Char)) :
    stubsFrom before (l :: rest)
      = ⟨(signatureOn before).1, (signatureOn before).2,
          receiver :: (rest.takeWhile fun l => (unindented l).head? != some '\x7d').filterMap
            reference?⟩
        :: stubsFrom l rest := by
  rw [stubsFrom, h]

theorem stubsFrom_of_silent {ls : List (List Char)} (h : ∀ l ∈ ls, receiver? l = none)
    (before : List Char) : stubsFrom before ls = [] := by
  have hall := stubsFrom_append h before []
  rw [List.append_nil] at hall
  rw [hall, stubsFrom]

theorem reference?_lineChars (depth : Nat) (text : String) :
    reference? (lineChars depth text) = reference? text.toList := by
  rw [reference?, unindented_lineChars, ← reference?]

/-- A field that takes its value off a name refers to that name. -/
theorem reference?_field (label : String) (hlabel : isWord label = true) {n : String}
    (hn : ∀ c ∈ n.toList, Scan.isWordPart c = true) (rest : List Char) {line : List Char}
    (hline : line = label.toList ++ ':' :: ' ' :: (n.toList ++ '.' :: rest)) :
    reference? line = some n := by
  have hcolon : ∀ c ∈ label.toList, decide (c ≠ ':') = true := fun c hc =>
    decide_eq_true fun heq =>
      absurd (isWordPart_of_isWord hlabel c hc) (by rw [heq]; decide)
  have hpoint : ∀ c ∈ ('.' :: rest).head?, Scan.isWordPart c = false := by
    rintro _ ⟨⟩
    decide
  obtain ⟨htake, hdrop⟩ := Scan.span_run hn hpoint
  rw [hline, reference?, unindented_word hlabel, List.dropWhile_append_of_pos hcolon,
    List.dropWhile_cons_of_neg (by simp), List.drop_succ_cons, List.drop_succ_cons, List.drop_zero]
  simp only [htake, hdrop, List.head?_cons, if_true, String.ofList_toList]

section Method

variable {c : Contract} {op : ContractOperation}

/-- The fields that a method sends are silent. -/
theorem silent_sentFields : ∀ code ∈ sentFields c op, Silent code := by
  simp only [sentFields, List.forall_mem_cons]
  exact ⟨silent_of_first (c := 'i') (by simp) (by decide),
    silent_of_first (c := 'p') (by simp) (by decide),
    silent_of_first (c := 'p') (by simp) (by decide),
    List.forall_mem_nil _⟩

/-- They refer to the registry, for the intent and for the proof. -/
theorem filterMap_reference?_sentFields (h : isWord c.name = true) (depth : Nat) :
    (linesAllAt depth (sentFields c op)).filterMap reference?
      = [c.registryName, c.registryName] := by
  have hregistry := isWordPart_of_mem_derived h c.registryName (by simp)
  have hintent : reference? ("intent: " ++ c.registryName ++ "." ++ op.name ++ ".intent,").toList
      = some c.registryName :=
    reference?_field "intent" (by decide) hregistry (op.name ++ ".intent,").toList (by simp)
  have hproof : reference? ("proof: " ++ c.registryName ++ "." ++ op.name ++ ".proof,").toList
      = some c.registryName :=
    reference?_field "proof" (by decide) hregistry (op.name ++ ".proof,").toList (by simp)
  have hpayload : reference? ("payload: " ++ payloadLiteral op ++ ",").toList = none := by
    have hrecord : ∀ rest : List Char, reference? ("payload: \x7b".toList ++ rest) = none :=
      fun rest => rfl
    unfold payloadLiteral
    split
    · decide
    · have hline : ("payload: " ++ ("\x7b " ++ join ", " op.parameterNames ++ " \x7d")
            ++ ",").toList
          = "payload: \x7b".toList
            ++ (" " ++ join ", " op.parameterNames ++ " \x7d" ++ ",").toList := by
        simp
      rw [hline, hrecord]
  simp only [sentFields, linesAllAt, linesAt, List.singleton_append, List.filterMap_cons,
    reference?_lineChars, hintent, hproof, hpayload, List.filterMap_nil]

/-- They end where the brace behind them is. -/
theorem takeWhile_sentFields (depth : Nat) {closing : List Char}
    (hclosing : (unindented closing).head? = some '\x7d') (rest : List (List Char)) :
    (linesAllAt depth (sentFields c op) ++ closing :: rest).takeWhile
        (fun l => (unindented l).head? != some '\x7d')
      = linesAllAt depth (sentFields c op) := by
  have hopen : ∀ l ∈ linesAllAt depth (sentFields c op),
      ((unindented l).head? != some '\x7d') = true := by
    have hfirst : ∀ {text : String} {d : Char}, text.toList.head? = some d → d ≠ ' ' → d ≠ '\x7d' →
        ((unindented (lineChars depth text)).head? != some '\x7d') = true :=
      fun htext hblank hd => by
        rw [unindented_lineChars, head?_unindented htext hblank]
        simpa using hd
    simp only [sentFields, linesAllAt, linesAt, List.singleton_append, List.forall_mem_cons]
    exact ⟨hfirst (d := 'i') (by simp) (by decide) (by decide),
      hfirst (d := 'p') (by simp) (by decide) (by decide),
      hfirst (d := 'p') (by simp) (by decide) (by decide), List.forall_mem_nil _⟩
  rw [List.takeWhile_append_of_pos hopen, List.takeWhile_cons_of_neg (by simp [hclosing]),
    List.append_nil]

/-- **A method is read back.** -/
theorem stubsFrom_method (h : isWord c.name = true) {signature closing : String}
    {depth : Nat} (hsilent : receiver? signature.toList = none)
    (hsignature : signatureOn (lineChars depth signature) = (op.name, op.parameterNames))
    (hclosing : closing.toList.head? = some '\x7d') (before : List Char)
    (rest : List (List Char)) :
    stubsFrom before (linesAt depth (.block signature
        [.block "return transport.send(\x7b" (sentFields c op) closing] "\x7d,") ++ rest)
      = stubFor c op :: stubsFrom (lineChars depth "\x7d,") rest := by
  have hlines : linesAt depth (.block signature
        [.block "return transport.send(\x7b" (sentFields c op) closing] "\x7d,") ++ rest
      = [lineChars depth signature] ++ lineChars (depth + 1) "return transport.send(\x7b"
        :: (linesAllAt (depth + 1 + 1) (sentFields c op)
          ++ lineChars (depth + 1) closing :: (lineChars depth "\x7d," :: rest)) := by
    simp [linesAt, linesAllAt]
  have hend : (unindented (lineChars (depth + 1) closing)).head? = some '\x7d' := by
    rw [unindented_lineChars, head?_unindented hclosing (by decide)]
  have hsend : receiver? (lineChars (depth + 1) "return transport.send(\x7b")
      = some "transport" := by
    rw [receiver?_lineChars]
    decide
  have hbehind : ∀ l ∈ linesAllAt (depth + 1 + 1) (sentFields c op)
      ++ [lineChars (depth + 1) closing, lineChars depth "\x7d,"], receiver? l = none := by
    rw [List.forall_mem_append, forall_mem_linesAllAt]
    refine ⟨fun code hcode => silent_sentFields code hcode _, ?_⟩
    simp only [List.forall_mem_cons, receiver?_lineChars]
    exact ⟨receiver?_of_first hclosing (by decide), by decide, List.forall_mem_nil _⟩
  have hrest := stubsFrom_append hbehind (lineChars (depth + 1) "return transport.send(\x7b") rest
  simp only [List.append_assoc, List.cons_append, List.nil_append] at hrest
  -- first the signature, which is the line in front of the one that sends
  have hfirst : ∀ l ∈ [lineChars depth signature], receiver? l = none :=
    List.forall_mem_singleton.mpr ((receiver?_lineChars depth signature).trans hsilent)
  rw [hlines, stubsFrom_append hfirst, stubsFrom_of_receiver? hsend, takeWhile_sentFields _ hend,
    filterMap_reference?_sentFields h, hrest]
  simp [stubFor, hsignature, List.getLastD_eq_getLast?]

end Method

/-! ## The methods of a client module -/

section Client

variable {c : Contract} {method : ContractOperation → List Code}

/-- **Methods in a row are read back**, if what follows them is silent. -/
theorem stubsFrom_methods {depth : Nat} {ops : List ContractOperation} {rest : List (List Char)}
    (hmethod : ∀ op ∈ ops, ∀ before more, ∃ last,
      stubsFrom before (linesAllAt depth (method op) ++ more) = stubFor c op :: stubsFrom last more)
    (hrest : ∀ l ∈ rest, receiver? l = none) (before : List Char) :
    stubsFrom before (linesAllAt depth (ops.flatMap method) ++ rest) = ops.map (stubFor c) := by
  induction ops generalizing before with
  | nil => exact stubsFrom_of_silent hrest before
  | cons op ops ih =>
    rw [List.forall_mem_cons] at hmethod
    rw [List.flatMap_cons, linesAllAt_append, List.append_assoc]
    obtain ⟨last, hlast⟩ := hmethod.1 before (linesAllAt depth (ops.flatMap method) ++ rest)
    rw [hlast, ih hmethod.2, List.map_cons]

/-- **The function that makes a client is read as its methods**, if the code around it is silent. -/
theorem stubsFrom_factory {front back : List Code} {opening : String}
    (hfront : ∀ code ∈ front, Silent code) (hopening : receiver? opening.toList = none)
    (hmethod : ∀ op ∈ c.operations, ∀ before more, ∃ last,
      stubsFrom before (linesAllAt 2 (method op) ++ more) = stubFor c op :: stubsFrom last more)
    (hback : ∀ code ∈ back, Silent code) :
    stubsFrom [] (linesAllAt 0 (front ++ .block opening
        [.block "return \x7b" (c.operations.flatMap method) "\x7d;"] "\x7d" :: back) ++ [[]])
      = c.operations.map (stubFor c) := by
  have hlines : linesAllAt 0 (front ++ .block opening
        [.block "return \x7b" (c.operations.flatMap method) "\x7d;"] "\x7d" :: back) ++ [[]]
      = (linesAllAt 0 front ++ [lineChars 0 opening, lineChars 1 "return \x7b"])
        ++ (linesAllAt 2 (c.operations.flatMap method)
          ++ ([lineChars 1 "\x7d;", lineChars 0 "\x7d"] ++ linesAllAt 0 back ++ [[]])) := by
    simp [linesAllAt_append, linesAllAt, linesAt]
  have hbefore : ∀ l ∈ linesAllAt 0 front ++ [lineChars 0 opening, lineChars 1 "return \x7b"],
      receiver? l = none := by
    rw [List.forall_mem_append, forall_mem_linesAllAt]
    refine ⟨fun code hcode => hfront code hcode 0, ?_⟩
    simp only [List.forall_mem_cons, receiver?_lineChars]
    exact ⟨hopening, by decide, List.forall_mem_nil _⟩
  have hbehind : ∀ l ∈ [lineChars 1 "\x7d;", lineChars 0 "\x7d"] ++ linesAllAt 0 back ++ [[]],
      receiver? l = none := by
    rw [List.forall_mem_append, List.forall_mem_append, forall_mem_linesAllAt]
    exact ⟨⟨by decide, fun code hcode => hback code hcode 0⟩, by decide⟩
  rw [hlines, stubsFrom_append hbefore, stubsFrom_methods hmethod hbehind]

end Client

section Pieces

variable {c : Contract} {op : ContractOperation}

theorem silent_header (c : Contract) (kind : ModuleKind) :
    ∀ code ∈ header c kind, Silent code := by
  simp only [header, List.forall_mem_cons]
  exact ⟨silent_of_first (c := '/') (by simp) (by decide),
    silent_of_first (c := '/') (by simp) (by decide), silent_blank,
    List.forall_mem_nil _⟩

theorem silent_docComment (texts : List String) : ∀ code ∈ docComment texts, Silent code := by
  rw [docComment, List.forall_mem_append, List.forall_mem_cons, List.forall_mem_map,
    List.forall_mem_singleton]
  refine ⟨⟨silent_line (by decide), fun text _ => silent_line (receiver?_of_head? ?_)⟩,
    silent_line (by decide)⟩
  simp [unindented]

theorem silent_messageTypes : ∀ code ∈ messageTypes, Silent code := by
  simp only [messageTypes, List.forall_mem_cons]
  refine ⟨silent_block (by decide) ?_ (by decide), silent_blank,
    silent_block (by decide) ?_ (by decide), silent_blank, List.forall_mem_nil _⟩ <;>
  · simp only [List.forall_mem_cons]
    and_intros
    all_goals first | exact silent_line (by decide) | exact List.forall_mem_nil _

theorem silent_messageComments : ∀ code ∈ messageComments, Silent code := by
  simp only [messageComments, List.forall_mem_append, List.forall_mem_singleton]
  exact ⟨⟨⟨silent_docComment _, silent_blank⟩, silent_docComment _⟩, silent_blank⟩

/-- The entries of a registry are silent, whatever the operations are called. -/
theorem silent_entries {opening closing : String} {entry : ContractOperation → String}
    (h : c.WellFormed) (hopening : opening.toList.head? = some 'e')
    (hentry : ∀ op, ∃ rest, (entry op).toList = op.name.toList ++ ':' :: rest)
    (hclosing : closing.toList.head? = some '\x7d') :
    Silent (.block opening (c.operations.map fun op => .line (entry op)) closing) := by
  refine silent_block (receiver?_of_first hopening (by decide))
    (List.forall_mem_map.mpr fun op hop => silent_line ?_)
    (receiver?_of_first hclosing (by decide))
  obtain ⟨rest, hrest⟩ := hentry op
  rw [hrest, receiver?_word (h.operations op hop).name (by decide) (by decide)]

/-- The signature of a method of a typed client, cut behind its parameters. -/
theorem clientSignature_append (op : ContractOperation) (back : String) :
    clientSignature op ++ back
      = op.name ++ "(" ++ join ", " (op.parameters.map typedParameter) ++ ")"
        ++ (": Promise<" ++ op.awaitedText ++ ">" ++ back) :=
  String.toList_inj.mp (by simp [clientSignature])

theorem receiver?_signature (h : op.WellFormed) (parameters more : String) :
    receiver? (op.name ++ "(" ++ parameters ++ ")" ++ more).toList = none := by
  have htext : (op.name ++ "(" ++ parameters ++ ")" ++ more).toList
      = op.name.toList ++ '(' :: (parameters ++ ")" ++ more).toList := by
    simp
  rw [htext, receiver?_word h.name (by decide) (by decide)]

theorem silent_clientType (h : c.WellFormed) : Silent (clientType c) := by
  refine silent_block (receiver?_of_first (c := 'e') (by simp) (by decide))
    (List.forall_mem_map.mpr fun op hop => silent_line ?_) (by decide)
  rw [clientSignature_append]
  exact receiver?_signature (h.operations op hop) _ _

/-- **A method of a typed client is read back.** -/
theorem stubsFrom_typedMethod (h : isWord c.name = true) (hop : op.WellFormed)
    (before : List Char) (rest : List (List Char)) :
    ∃ last, stubsFrom before (linesAllAt 2 [typedMethod c op] ++ rest)
      = stubFor c op :: stubsFrom last rest := by
  rw [linesAllAt, linesAllAt, List.append_nil, typedMethod, clientSignature_append]
  exact ⟨_, stubsFrom_method h (receiver?_signature hop _ _)
    (signatureOn_line hop.name (fun p hp => declaresParameter_typed (hop.parameters p hp)) 2 _)
    (by simp) before rest⟩

/-- **A method of a client with comments is read back.** -/
theorem stubsFrom_commentedMethod (h : isWord c.name = true) (hop : op.WellFormed)
    (before : List Char) (rest : List (List Char)) :
    ∃ last, stubsFrom before (linesAllAt 2 (commentedMethod c op) ++ rest)
      = stubFor c op :: stubsFrom last rest := by
  have hsignature : op.name ++ "(" ++ join ", " op.parameterNames ++ ") \x7b"
      = op.name ++ "(" ++ join ", " op.parameterNames ++ ")" ++ " \x7b" :=
    String.toList_inj.mp (by simp)
  have hcomment := fun texts => forall_mem_linesAllAt.mpr fun code hcode =>
    silent_docComment texts code hcode 2
  rw [commentedMethod, linesAllAt_append, List.append_assoc, stubsFrom_append (hcomment _),
    linesAllAt, linesAllAt, List.append_nil, hsignature]
  exact ⟨_, stubsFrom_method h (receiver?_signature hop _ _)
    (signatureOn_line hop.name (fun p hp => declaresParameter_name (hop.parameters p hp).name) 2 _)
    rfl _ rest⟩

/-- **The methods of a client module are those of the contract's operations.** -/
theorem stubsIn_client (h : c.WellFormed) (flavor : Flavor) :
    stubsIn (c.generate flavor).client.text = c.operations.map (stubFor c) := by
  rw [stubsIn, lines_client h]
  cases flavor with
  | typeScript =>
    have hcode : clientCode .typeScript c
        = (header c .client ++ messageTypes ++ paragraph (c.referencedTypes.map typePlaceholder)
            ++ [typedRegistry c, .blank, clientType c, .blank]
            ++ paragraph (if c.referencesSelf then [selfType c] else []))
          ++ typedFactory c :: [] := rfl
    have hmethods : c.operations.map (typedMethod c)
        = c.operations.flatMap fun op => [typedMethod c op] := List.map_eq_flatMap
    rw [hcode, typedFactory, hmethods]
    refine stubsFrom_factory ?_ ?_
      (fun op hop => stubsFrom_typedMethod h.name (h.operations op hop)) (List.forall_mem_nil _)
    · have hregistry : Silent (typedRegistry c) :=
        silent_entries h (by simp) (fun op => by simp [registryEntry]) rfl
      have hself : Silent (selfType c) :=
        silent_of_first (c := 'e') (by simp) (by decide)
      have htypes : ∀ code ∈ c.referencedTypes.map typePlaceholder, Silent code :=
        List.forall_mem_map.mpr fun n _ =>
          silent_of_first (c := 'e') (by simp) (by decide)
      simp only [List.forall_mem_append, List.forall_mem_cons]
      refine ⟨⟨⟨⟨silent_header c _, silent_messageTypes⟩, forall_mem_paragraph htypes silent_blank⟩,
        hregistry, silent_blank, silent_clientType h, silent_blank, List.forall_mem_nil _⟩,
        forall_mem_paragraph ?_ silent_blank⟩
      split <;> simp [hself]
    · exact receiver?_of_first (c := 'e') (by simp) (by decide)
  | javaScript =>
    have hcode : clientCode .javaScript c
        = (header c .client ++ messageComments
            ++ paragraph (c.referencedTypes.map commentPlaceholder) ++ [frozenRegistry c, .blank]
            ++ docComment ["@param \x7bIntentTransport\x7d transport"])
          ++ .block ("export function " ++ c.factoryName ++ "(transport) \x7b")
              [.block "return \x7b" (c.operations.flatMap (commentedMethod c)) "\x7d;"] "\x7d"
            :: (if c.referencesSelf then [.blank, selfComment c] else []) := by
      simp [clientCode, commentedClient, commentedFactory]
    rw [hcode]
    refine stubsFrom_factory ?_ ?_
      (fun op hop => stubsFrom_commentedMethod h.name (h.operations op hop)) ?_
    · have hregistry : Silent (frozenRegistry c) :=
        silent_entries h (by simp) (fun op => by simp [frozenEntry]) rfl
      have htypes : ∀ code ∈ c.referencedTypes.map commentPlaceholder, Silent code :=
        List.forall_mem_map.mpr fun n _ =>
          silent_of_first (c := '/') (by simp) (by decide)
      simp only [List.forall_mem_append, List.forall_mem_cons]
      exact ⟨⟨⟨⟨silent_header c _, silent_messageComments⟩,
        forall_mem_paragraph htypes silent_blank⟩, hregistry, silent_blank, List.forall_mem_nil _⟩,
        silent_docComment _⟩
    · exact receiver?_of_first (c := 'e') (by simp) (by decide)
    · have hself : Silent (selfComment c) :=
        silent_of_first (c := '/') (by simp) (by decide)
      split <;> simp [silent_blank, hself]

end Pieces

/-! ## The methods of the handlers' type -/

section Handlers

variable {c : Contract} {op : ContractOperation}

theorem declaresParameter_message : DeclaresParameter "message?: IntentMessage" "message" where
  isWord := by decide
  name := ⟨"?: IntentMessage".toList, by simp, not_isWordPart_of_mem_head? (by decide)⟩
  comma := by decide
  parenthesis := by decide

/-- **A handler's signature is read back**: the parameters of the operation, and the message. -/
theorem signatureOn_handlerSignature (h : op.WellFormed) (depth : Nat) :
    signatureOn (lineChars depth (handlerSignature op))
      = (op.name, op.parameterNames ++ ["message"]) := by
  let parameters : List (String × String) :=
    op.parameters.map (fun p => (typedParameter p, p.name))
      ++ [("message?: IntentMessage", "message")]
  have hdeclares : ∀ p ∈ parameters, DeclaresParameter p.1 p.2 := by
    rw [List.forall_mem_append, List.forall_mem_map, List.forall_mem_singleton]
    exact ⟨fun p hp => declaresParameter_typed (h.parameters p hp), declaresParameter_message⟩
  have htexts : parameters.map Prod.fst
      = op.parameters.map typedParameter ++ ["message?: IntentMessage"] := by
    simp [parameters]
  have hnames : parameters.map Prod.snd = op.parameterNames ++ ["message"] := by
    simp [parameters, ContractOperation.parameterNames]
  have hsignature : handlerSignature op = op.name ++ "(" ++ join ", " (parameters.map Prod.fst)
      ++ ")" ++ (": " ++ syncOrAsync op.awaitedText ++ ";") := by
    rw [htexts]
    exact String.toList_inj.mp (by simp [handlerSignature])
  rw [hsignature, signatureOn_line h.name hdeclares, hnames]

/-- The type of what registers handlers is not that of the handlers, whatever the contract is
called. -/
theorem isPrefixOf_runtimeType (h : isWord c.name = true) :
    ("export interface " ++ c.name ++ "Handlers \x7b").toList.isPrefixOf
      "export interface IntentRuntime \x7b".toList = false := by
  refine Bool.eq_false_iff.mpr fun hprefix => ?_
  obtain ⟨rest, hrest⟩ := List.isPrefixOf_iff_prefix.mp hprefix
  have hnames : c.name.toList ++ "Handlers".toList ++ ' ' :: '\x7b' :: rest
      = "IntentRuntime".toList ++ ' ' :: '\x7b' :: [] := by
    simpa using hrest
  -- the two names end at the same blank, and so in the same letter
  have hword : ∀ d ∈ c.name.toList ++ "Handlers".toList, Scan.isWordPart d = true :=
    List.forall_mem_append.mpr ⟨isWordPart_of_isWord h,
      isWordPart_of_isWord (by decide : isWord "Handlers" = true)⟩
  have hruntime := isWordPart_of_isWord (by decide : isWord "IntentRuntime" = true)
  have hblank : ∀ more : List Char, ∀ d ∈ (' ' :: more).head?, Scan.isWordPart d = false := by
    rintro more _ ⟨⟩
    decide
  have htake := (Scan.span_run hword (hblank ('\x7b' :: rest))).1
  rw [hnames, (Scan.span_run hruntime (hblank ['\x7b'])).1] at htake
  have hends := congrArg (fun cs => cs.reverse.head?) htake
  simp at hends

/-- What stands in front of the handlers' type does not look like its first line. -/
theorem isPrefixOf_front (h : c.WellFormed) :
    ∀ code ∈ header c .handlers
      ++ [registryImport c .typeScript, typeImport c, .blank, runtimeType, .blank],
      ∀ l ∈ linesAt 0 code,
        ("export interface " ++ c.name ++ "Handlers \x7b").toList.isPrefixOf l = false := by
  have hfirst : ∀ {l : List Char}, l.head? ≠ some 'e' →
      ("export interface " ++ c.name ++ "Handlers \x7b").toList.isPrefixOf l = false := by
    rintro (_ | ⟨d, ds⟩) hd
    · simp
    · have hne : 'e' ≠ d := fun heq => hd (congrArg some heq.symm)
      simp [List.isPrefixOf, hne]
  rw [List.forall_mem_append]
  constructor
  · simp only [header, List.forall_mem_cons, linesAt, lineChars_zero]
    refine ⟨⟨hfirst (by simp), List.forall_mem_nil _⟩, ⟨hfirst (by simp), List.forall_mem_nil _⟩,
      ⟨hfirst (by simp), List.forall_mem_nil _⟩, List.forall_mem_nil _⟩
  · simp only [registryImport, typeImport, runtimeType, List.forall_mem_cons,
      List.forall_mem_append, linesAt, lineChars_zero]
    refine ⟨⟨hfirst (by simp), List.forall_mem_nil _⟩, ⟨hfirst (by simp), List.forall_mem_nil _⟩,
      ⟨hfirst (by simp), List.forall_mem_nil _⟩,
      ⟨isPrefixOf_runtimeType h.name, fun l hl =>
        hfirst (head?_of_mem_linesAllAt (by decide) 0 _ l hl), hfirst (by decide),
        List.forall_mem_nil _⟩,
      ⟨hfirst (by simp), List.forall_mem_nil _⟩, List.forall_mem_nil _⟩

/-- **The methods of the handlers' type are those of the contract's operations.** -/
theorem handlerMethods_handlers (h : c.WellFormed) :
    handlerMethods c.name (c.generate .typeScript).handlers.text
      = c.operations.map fun op => (op.name, op.parameterNames ++ ["message"]) := by
  have hlines : lines (c.generate .typeScript).handlers.text
      = linesAllAt 0 (header c .handlers
          ++ [registryImport c .typeScript, typeImport c, .blank, runtimeType, .blank])
        ++ ("export interface " ++ c.name ++ "Handlers \x7b").toList
          :: ((c.operations.map fun op => lineChars 1 (handlerSignature op))
            ++ "\x7d".toList :: (linesAllAt 0 [.blank, typedRegistrar c] ++ [[]])) := by
    rw [lines_handlers h, ← linesAllAt_map_line]
    simp [handlersCode, typedHandlers, handlersType, Contract.handlersName, linesAllAt_append,
      linesAllAt, linesAt, lineChars_zero]
  rw [handlerMethods, hlines, linesBehind_eq (forall_mem_linesAllAt.mpr (isPrefixOf_front h))
    (by simp) ?_ rfl, List.map_map]
  · exact List.map_congr_left fun op hop => signatureOn_handlerSignature (h.operations op hop) 1
  · exact List.forall_mem_map.mpr fun op _ => head?_lineChars_succ 0 _ (by decide)

end Handlers

/-- **The parameters of generated methods and the names around them.** The client modules have a
method for each operation, which refers to the transport and the registry, and captures nothing
just if no parameter has one of these names. The handlers' type has a method for each operation,
whose parameters are distinct just if none of the operation's own is called `message`. -/
theorem parameters_in_scope {source : String} {c : Contract}
    (h : Contract.ofSource source = .ok c)
    (hparameters : ∀ op ∈ c.operations, op.parameterNames.Nodup) :
    (∀ flavor, stubsIn (c.generate flavor).client.text
        = c.operations.map fun op =>
          ⟨op.name, op.parameterNames, ["transport", c.registryName, c.registryName]⟩)
      ∧ (∀ flavor, (∀ s ∈ stubsIn (c.generate flavor).client.text, ¬ s.Captures)
        ↔ ∀ op ∈ c.operations, "transport" ∉ op.parameterNames
          ∧ c.registryName ∉ op.parameterNames)
      ∧ handlerMethods c.name (c.generate .typeScript).handlers.text
        = (c.operations.map fun op => (op.name, op.parameterNames ++ ["message"]))
      ∧ ((∀ m ∈ handlerMethods c.name (c.generate .typeScript).handlers.text, m.2.Nodup)
        ↔ ∀ op ∈ c.operations, "message" ∉ op.parameterNames) := by
  have hc := Contract.wellFormed_of_ofSource h
  refine ⟨stubsIn_client hc, fun flavor => ?_, handlerMethods_handlers hc, ?_⟩
  · rw [stubsIn_client hc, List.forall_mem_map]
    exact forall₂_congr fun op _ => captures_stubFor.not.trans not_or
  · rw [handlerMethods_handlers hc, List.forall_mem_map]
    refine forall₂_congr fun op hop => ?_
    rw [List.nodup_append_comm, List.singleton_append, List.nodup_cons]
    exact and_iff_left (hparameters op hop)

/-- A method without parameters, and one whose parameters have names of fields and types. -/
theorem parameters_in_scope_shop :
    ∃ c, Contract.ofSource
        "interface Shop \x7b void pay(long intent, Card Shop); void ping(); \x7d;" = .ok c
      ∧ (∀ op ∈ c.operations, op.parameterNames.Nodup)
      ∧ (∀ flavor, ∀ s ∈ stubsIn (c.generate flavor).client.text, ¬ s.Captures)
      ∧ ∀ m ∈ handlerMethods "Shop" (c.generate .typeScript).handlers.text, m.2.Nodup := by
  have hc : Contract.ofSource
        "interface Shop \x7b void pay(long intent, Card Shop); void ping(); \x7d;"
      = .ok ⟨"Shop", none, none,
        [⟨"pay", [⟨"intent", .primitive "long"⟩, ⟨"Shop", .primitive "Card"⟩],
            some (.primitive "void"), .ofAttributes []⟩,
          ⟨"ping", [], some (.primitive "void"), .ofAttributes []⟩]⟩ := by
    with_unfolding_all rfl
  obtain ⟨-, hstubs, -, hmethods⟩ := parameters_in_scope hc (by decide)
  exact ⟨_, hc, by decide, fun flavor => (hstubs flavor).mpr (by decide), hmethods.mpr (by decide)⟩

/-- **A parameter may capture the transport**, and one may be a second `message`. -/
theorem parameters_captured :
    ∃ c, Contract.ofSource "interface I \x7b void f(long transport, long message); \x7d;" = .ok c
      ∧ (∀ op ∈ c.operations, op.parameterNames.Nodup)
      ∧ (∀ flavor, stubsIn (c.generate flavor).client.text
        = [⟨"f", ["transport", "message"], ["transport", "IIntents", "IIntents"]⟩])
      ∧ (∀ flavor, ¬ ∀ s ∈ stubsIn (c.generate flavor).client.text, ¬ s.Captures)
      ∧ handlerMethods "I" (c.generate .typeScript).handlers.text
        = [("f", ["transport", "message", "message"])]
      ∧ ¬ ∀ m ∈ handlerMethods "I" (c.generate .typeScript).handlers.text, m.2.Nodup := by
  have hc : Contract.ofSource "interface I \x7b void f(long transport, long message); \x7d;"
      = .ok ⟨"I", none, none,
        [⟨"f", [⟨"transport", .primitive "long"⟩, ⟨"message", .primitive "long"⟩],
          some (.primitive "void"), .ofAttributes []⟩]⟩ := by
    with_unfolding_all rfl
  have hwf := Contract.wellFormed_of_ofSource hc
  have hstubs := stubsIn_client hwf
  have hmethods := handlerMethods_handlers hwf
  refine ⟨_, hc, by decide, hstubs, fun flavor => ?_, hmethods, ?_⟩
  · rw [hstubs]
    decide
  · rw [hmethods]
    decide

end IntentContract.Generated
