import IntentContract.Proofs.Generated.Registry

/-!
# The handlers in a handler module

The handler module registers a handler for each entry of the registry. This module reads the
registrations off the text: on a line that calls the registering function, the entry whose intent
is bound, and in the lines up to the closing brace the handler that is called and the fields of
the payload that it gets. It finds one registration for each operation, in order, and each binds
the operation's entry to the operation's own handler and parameters (`bindingsOf?_handlers`).

The steps follow the text: a call is read back (`callOf?_call`), a registration
(`bindingsIn?_registration`), registrations in a row (`bindingsIn?_registrations`), and lines
that register nothing are passed over – among them the signatures of handlers, whatever the
operations are called.
-/

namespace IntentContract.Generated

open Text Code

/-! ## Reading the handlers -/

/-- **What a registration binds**: an entry of the registry, the handler that is called for it, and
the fields of the payload that the handler gets, in front of the message. -/
structure Binding where
  entry : String
  handler : String
  fields : List String
  deriving DecidableEq

/-- The field of the payload that an argument reads, as it is or under a type. -/
def fieldOf? (argument : List Char) : Option String := do
  let access ← argument.dropPrefix? "payload[".toList
  let (some field, rest) ← valueInFront? access | none
  let cast ← rest.dropPrefix? "]".toList
  if cast.isEmpty || " as ".toList.isPrefixOf cast then some field else none

/-- The handler that is called, and the fields it gets if the message is its last argument. -/
def callOf? (call : List Char) : Option (String × List String) := do
  let (handler, rest) := call.span (· ≠ '(')
  let arguments := (rest.tail.splitOn ',').map unindented
  if arguments.getLast? = some "message);".toList then
    let fields ← arguments.dropLast.mapM fieldOf?
    return (String.ofList handler, fields)
  else none

/-- What a registration binds, from its first line behind the name of the registering function
and from the lines of its body, of which one calls a handler. -/
def bindingOf? (registry : String) (first : List Char) (body : List (List Char)) :
    Option Binding := do
  let (entry, rest) := (← first.dropPrefix? (registry ++ ".").toList).span (· ≠ '.')
  match ".intent, ".toList.isPrefixOf rest,
      body.filterMap fun l => (unindented l).dropPrefix? "return handlers.".toList with
  | true, [call] =>
    let (handler, fields) ← callOf? call
    return ⟨String.ofList entry, handler, fields⟩
  | _, _ => none

/-- What stands behind the name of the registering function, on a line that calls it. -/
def registered? (line : List Char) : Option (List Char) :=
  (unindented line).dropPrefix? "runtime.registerIntent(".toList

/-- What all registrations on a list of lines bind, in order. -/
def bindingsIn? (registry : String) : List (List Char) → Option (List Binding)
  | [] => some []
  | l :: rest =>
    match registered? l with
    | none => bindingsIn? registry rest
    | some first => do
      let body := rest.takeWhile fun l => (unindented l).head? != some '\x7d'
      return (← bindingOf? registry first body) :: (← bindingsIn? registry rest)

/-- **The bindings in the text of a handler module**: one for each line that registers an
intent. -/
def bindingsOf? (name : String) (text : String) : Option (List Binding) :=
  bindingsIn? (name ++ "Intents") (lines text)

/-- The binding that an operation should have. -/
def bindingFor (op : ContractOperation) : Binding :=
  ⟨op.name, op.name, op.parameterNames⟩

/-- Lines that register nothing are passed over. -/
theorem bindingsIn?_append {registry : String} (front rest : List (List Char))
    (h : ∀ l ∈ front, registered? l = none) :
    bindingsIn? registry (front ++ rest) = bindingsIn? registry rest := by
  induction front with
  | nil => rfl
  | cons l front ih =>
    rw [List.forall_mem_cons] at h
    rw [List.cons_append, bindingsIn?, h.1, ih h.2]

/-- What a text begins with can be taken off it. -/
theorem dropPrefix?_append (front rest : List Char) :
    (front ++ rest).dropPrefix? front = some rest :=
  List.dropPrefix?_append_of_beq rest (beq_self_eq_true front)

/-- An argument that reads a field, and that no comma cuts in two. -/
structure ReadsField (argument : String) (name : String) : Prop where
  field : fieldOf? (unindented argument.toList) = some name
  comma : ',' ∉ argument.toList

/-- No character of a word is escaped. -/
theorem escapeChar_of_isWordPart {c : Char} (h : Scan.isWordPart c = true) :
    Json.escapeChar c = [c] := by
  have hcontrol : 32 ≤ c.toNat := by
    by_contra hlt
    have hcontrols : ∀ n < 32, Scan.isWordPart (Char.ofNat n) = false := by decide
    have hc := hcontrols c.toNat (Nat.lt_of_not_le hlt)
    rw [Char.ofNat_toNat, h] at hc
    cases hc
  have hne : ∀ d, Scan.isWordPart d = false → c ≠ d := fun d hd heq => by
    rw [heq, hd] at h
    cases h
  unfold Json.escapeChar
  rw [if_neg (hne _ (by decide)), if_neg (hne _ (by decide)), if_neg (hne _ (by decide)),
    if_neg (hne _ (by decide)), if_neg (hne _ (by decide)), if_neg (by omega), if_neg (by omega),
    if_neg (by omega)]

theorem comma_not_mem_literal {n : String} (h : isWord n = true) :
    ',' ∉ (Json.literal n).toList := by
  have hchars : ∀ c ∈ n.toList, ',' ∉ Json.escapeChar c := fun c hc hmem => by
    rw [escapeChar_of_isWordPart (isWordPart_of_isWord h c hc), List.mem_singleton] at hmem
    rw [← hmem] at hc
    exact absurd (isWordPart_of_isWord h _ hc) (by decide)
  rw [Json.toList_literal, Json.escape]
  simpa using hchars

/-- An access to the payload reads a field, under a type or not. -/
theorem readsField_payloadField {p : Parameter} (h : isWord p.name = true) {cast : String}
    (hcast : (cast.toList.isEmpty || " as ".toList.isPrefixOf cast.toList) = true)
    (hcomma : ',' ∉ cast.toList) : ReadsField (payloadField p ++ cast) p.name where
  field := by
    have hargument : unindented (payloadField p ++ cast).toList
        = "payload[".toList ++ ((Json.literal p.name).toList ++ ("]".toList ++ cast.toList)) := by
      simp [payloadField, unindented]
    rw [hargument, fieldOf?, dropPrefix?_append]
    simp only [Option.bind_eq_bind, Option.bind_some, valueInFront?_literal, dropPrefix?_append]
    rw [if_pos hcast]
  comma := by simp [payloadField, comma_not_mem_literal h, hcomma]

/-- A blank in front of a text is no more than indentation of its first piece. -/
theorem map_unindented_splitOn_blank (cs : List Char) :
    ((' ' :: cs).splitOn ',').map unindented = (cs.splitOn ',').map unindented := by
  rw [List.splitOn_eq_splitOnP, List.splitOn_eq_splitOnP, List.splitOnP_cons_eq_if_modifyHead,
    if_neg (by decide)]
  cases List.splitOnP (· == ',') cs with
  | nil => rfl
  | cons piece pieces => rfl

/-- **Texts with commas between them are found again between the commas.** -/
theorem map_unindented_splitOn_join {ss : List String} (hne : ss ≠ [])
    (h : ∀ s ∈ ss, ',' ∉ s.toList) :
    ((join ", " ss).toList.splitOn ',').map unindented = ss.map fun s => unindented s.toList := by
  induction ss with
  | nil => exact absurd rfl hne
  | cons s ss ih =>
    rw [List.forall_mem_cons] at h
    cases ss with
    | nil => rw [join, List.splitOn_eq_singleton h.1]; rfl
    | cons t ss =>
      have hjoin : (join ", " (s :: t :: ss)).toList
          = s.toList ++ ',' :: (' ' :: (join ", " (t :: ss)).toList) := by
        rw [toList_join, row_cons_cons, ← toList_join]
        rfl
      rw [hjoin, List.splitOn_append_cons_self_of_not_mem h.1, List.map_cons,
        map_unindented_splitOn_blank, ih (List.cons_ne_nil t ss) h.2]
      rfl

/-- What is put behind joined texts is put behind the last of them. -/
theorem join_concat_append (ss : List String) (last more : String) :
    join ", " (ss ++ [last]) ++ more = join ", " (ss ++ [last ++ more]) := by
  induction ss with
  | nil => rfl
  | cons s ss ih =>
    have hjoin : ∀ t, join ", " (s :: (ss ++ [t])) = s ++ ", " ++ join ", " (ss ++ [t]) := by
      intro t
      rw [join]
      exact List.append_ne_nil_of_right_ne_nil ss (List.cons_ne_nil t [])
    rw [List.cons_append, List.cons_append, hjoin, hjoin, String.append_assoc, ih]

/-- **A call is read back**: the handler has the operation's name and gets the fields that its
arguments read. -/
theorem callOf?_call {op : ContractOperation} (hname : isWord op.name = true)
    {field : Parameter → String}
    (hfield : ∀ p ∈ op.parameters, ReadsField (field p) p.name) :
    callOf? (op.name ++ "(" ++ join ", " (op.parameters.map field ++ ["message"]) ++ ");").toList
      = some (op.name, op.parameterNames) := by
  have hcall : (op.name ++ "(" ++ join ", " (op.parameters.map field ++ ["message"]) ++ ");").toList
      = op.name.toList ++ '(' :: (join ", " (op.parameters.map field ++ ["message);"])).toList := by
    rw [String.append_assoc, join_concat_append]
    simp
  have harguments : ((join ", " (op.parameters.map field ++ ["message);"])).toList.splitOn ',').map
        unindented
      = (op.parameters.map fun p => unindented (field p).toList) ++ ["message);".toList] := by
    rw [map_unindented_splitOn_join, List.map_append, List.map_map]
    · rfl
    · exact List.append_ne_nil_of_right_ne_nil _ (List.cons_ne_nil _ _)
    · rw [List.forall_mem_append, List.forall_mem_map]
      exact ⟨fun p hp => (hfield p hp).comma, by decide⟩
  rw [hcall, callOf?, span_word hname (by decide)]
  simp only [List.tail_cons, harguments, List.getLast?_concat, List.dropLast_concat, if_true,
    mapM_map_eq_some fun p hp => (hfield p hp).field, Option.bind_eq_bind, Option.bind_some,
    String.ofList_toList]
  rfl

section Registration

variable {op : ContractOperation} {field : Parameter → String}

/-- The line that calls a handler is read behind its first words. -/
theorem unindented_call (depth : Nat) (call : String) :
    unindented (lineChars depth ("return handlers." ++ call))
      = "return handlers.".toList ++ call.toList := by
  rw [unindented_lineChars, String.toList_append]
  rfl

/-- The line that takes the payload off a message. -/
def payloadLine : List Char :=
  lineChars 2 "const payload = message.payload ?? \x7b\x7d;"

/-- The body of a registration: a line that takes the payload, and one that calls a handler. -/
def bodyLines (call : String) : List (List Char) :=
  [payloadLine, lineChars 2 ("return handlers." ++ call)]

theorem exists_unindented_payloadLine : ∃ cs, unindented payloadLine = 'c' :: cs := by
  rw [payloadLine, unindented_lineChars]
  exact ⟨_, congrArg unindented String.toList_ofList⟩

/-- The body of a registration has one call. -/
theorem filterMap_bodyLines (call : String) :
    (bodyLines call).filterMap (fun l => (unindented l).dropPrefix? "return handlers.".toList)
      = [call.toList] := by
  obtain ⟨cs, hcs⟩ := exists_unindented_payloadLine
  have hfirst : (unindented payloadLine).dropPrefix? "return handlers.".toList = none := by
    rw [hcs]
    rfl
  rw [bodyLines, List.filterMap_cons, hfirst, List.filterMap_cons, unindented_call,
    dropPrefix?_append]
  rfl

/-- It ends with the brace behind it. -/
theorem takeWhile_bodyLines (call : String) (rest : List (List Char)) :
    (bodyLines call ++ lineChars 1 "\x7d);" :: rest).takeWhile
      (fun l => (unindented l).head? != some '\x7d') = bodyLines call := by
  obtain ⟨cs, hcs⟩ := exists_unindented_payloadLine
  have hsecond : (unindented (lineChars 2 ("return handlers." ++ call))).head? = some 'r' := by
    rw [unindented_call]
    rfl
  have hclosing : (unindented (lineChars 1 "\x7d);")).head? = some '\x7d' := by decide
  simp [bodyLines, hcs, hsecond, hclosing]

/-- It registers nothing itself. -/
theorem bindingsIn?_bodyLines (registry call : String) (rest : List (List Char)) :
    bindingsIn? registry (bodyLines call ++ lineChars 1 "\x7d);" :: rest)
      = bindingsIn? registry rest := by
  rw [← List.singleton_append, ← List.append_assoc]
  refine bindingsIn?_append _ rest ?_
  have hfirst : registered? payloadLine = none := by
    obtain ⟨cs, hcs⟩ := exists_unindented_payloadLine
    rw [registered?, hcs]
    rfl
  have hsecond : registered? (lineChars 2 ("return handlers." ++ call)) = none := by
    rw [registered?, unindented_call]
    simp [List.dropPrefix?]
  have hlast : registered? (lineChars 1 "\x7d);") = none := by decide
  simp [bodyLines, hfirst, hsecond, hlast]

/-- What one registration binds. -/
theorem bindingOf?_registration (hname : isWord op.name = true)
    (hfield : ∀ p ∈ op.parameters, ReadsField (field p) p.name) (registry : String)
    (more : List Char) :
    bindingOf? registry
        ((registry ++ ".").toList ++ (op.name.toList ++ '.' :: ("intent, ".toList ++ more)))
        (bodyLines
          (op.name ++ "(" ++ join ", " (op.parameters.map field ++ ["message"]) ++ ");"))
      = some (bindingFor op) := by
  have hintent : ".intent, ".toList.isPrefixOf ('.' :: ("intent, ".toList ++ more)) = true := by
    simp [List.isPrefixOf]
  rw [bindingOf?, dropPrefix?_append]
  simp only [Option.bind_eq_bind, Option.bind_some]
  rw [span_word hname (by decide)]
  simp only [hintent, filterMap_bodyLines]
  rw [callOf?_call hname hfield, Option.bind_some, String.ofList_toList]
  rfl

/-- **One registration is read as one binding**, whatever the lines behind it hold. -/
theorem bindingsIn?_registration (hname : isWord op.name = true)
    (hfield : ∀ p ∈ op.parameters, ReadsField (field p) p.name) (c : Contract) (message : String)
    (rest : List (List Char)) :
    bindingsIn? c.registryName (linesAt 1 (registration c message field op) ++ rest)
      = (bindingsIn? c.registryName rest).map (bindingFor op :: ·) := by
  have hlines : linesAt 1 (registration c message field op) ++ rest
      = lineChars 1 ("runtime.registerIntent(" ++ c.registryName ++ "." ++ op.name ++ ".intent, ("
          ++ message ++ ") => \x7b")
        :: (bodyLines (op.name ++ "("
            ++ join ", " (op.parameters.map field ++ ["message"]) ++ ");")
          ++ lineChars 1 "\x7d);" :: rest) := by
    simp [registration, handlerCall, linesAt, linesAllAt, bodyLines, payloadLine,
      String.append_assoc]
  have hfirst : unindented (lineChars 1 ("runtime.registerIntent(" ++ c.registryName ++ "."
        ++ op.name ++ ".intent, (" ++ message ++ ") => \x7b"))
      = "runtime.registerIntent(".toList ++ ((c.registryName ++ ".").toList ++ (op.name.toList
        ++ '.' :: ("intent, ".toList ++ ("(" ++ message ++ ") => \x7b").toList))) := by
    rw [unindented_lineChars]
    simp [unindented]
  rw [hlines, bindingsIn?, registered?, hfirst, dropPrefix?_append]
  simp only [takeWhile_bodyLines, bindingOf?_registration hname hfield,
    bindingsIn?_bodyLines]
  cases bindingsIn? c.registryName rest <;> rfl

/-- **Registrations in a row are read as bindings in a row.** -/
theorem bindingsIn?_registrations (c : Contract) (message : String)
    {ops : List ContractOperation} (hname : ∀ op ∈ ops, isWord op.name = true)
    (hfield : ∀ op ∈ ops, ∀ p ∈ op.parameters, ReadsField (field p) p.name)
    (rest : List (List Char)) :
    bindingsIn? c.registryName (linesAllAt 1 (ops.map (registration c message field)) ++ rest)
      = (bindingsIn? c.registryName rest).map (ops.map bindingFor ++ ·) := by
  induction ops with
  | nil => exact Option.map_id'.symm
  | cons op ops ih =>
    rw [List.forall_mem_cons] at hname hfield
    rw [List.map_cons, linesAllAt, List.append_assoc, bindingsIn?_registration hname.1 hfield.1,
      ih hname.2 hfield.2, Option.map_map]
    rfl

end Registration

/-! ## The bindings of a handler module -/

/-- **The registering function is read as the bindings of all operations**, if no line in front of
it registers anything. -/
theorem bindingsIn?_registrar {c : Contract} (h : c.WellFormed) {front : List Code}
    {opening message : String} {field : Parameter → String}
    (hfront : ∀ code ∈ front, ∀ l ∈ linesAt 0 code, registered? l = none)
    (hopening : registered? (lineChars 0 opening) = none)
    (hfield : ∀ op ∈ c.operations, ∀ p ∈ op.parameters, ReadsField (field p) p.name) :
    bindingsIn? c.registryName (linesAllAt 0 (front
        ++ [.block opening (c.operations.map (registration c message field)) "\x7d"]) ++ [[]])
      = some (c.operations.map bindingFor) := by
  have hclosing : registered? (lineChars 0 "\x7d") = none := by decide
  have hlast : registered? [] = none := by decide
  have hlines : linesAllAt 0 (front
        ++ [.block opening (c.operations.map (registration c message field)) "\x7d"]) ++ [[]]
      = linesAllAt 0 front ++ ([lineChars 0 opening]
        ++ (linesAllAt 1 (c.operations.map (registration c message field))
          ++ [lineChars 0 "\x7d", []])) := by
    simp [linesAllAt_append, linesAllAt, linesAt]
  rw [hlines, bindingsIn?_append _ _ (forall_mem_linesAllAt.mpr hfront),
    bindingsIn?_append _ _ (List.forall_mem_singleton.mpr hopening),
    bindingsIn?_registrations c message (fun op hop => (h.operations op hop).name) hfield]
  simp [bindingsIn?, hclosing, hlast]

/-- A line that begins with a word and a parenthesis registers nothing. -/
theorem registered?_word {n : String} (h : isWord n = true) (depth : Nat) (rest : String) :
    registered? (lineChars depth (n ++ ("(" ++ rest))) = none := by
  have htext : (n ++ ("(" ++ rest)).toList = n.toList ++ '(' :: rest.toList := by simp
  rw [registered?, unindented_lineChars, htext, unindented_word h]
  refine Option.eq_none_iff_forall_ne_some.mpr fun more hmore => ?_
  obtain ⟨front, hfront, hbeq⟩ := List.dropPrefix?_eq_some_iff.mp hmore
  rw [eq_of_beq hbeq] at hfront
  -- the word would end at the point, where there is no parenthesis
  have hend : ∀ c ∈ ('(' :: rest.toList).head?, Scan.isWordPart c = false := by
    rintro _ ⟨⟩
    decide
  have hstop := (Scan.span_run (isWordPart_of_isWord h) hend).2
  have hpoint : ("runtime.registerIntent(".toList ++ more).dropWhile Scan.isWordPart
      = ".registerIntent(".toList ++ more := rfl
  rw [hfront, hpoint] at hstop
  exact absurd (List.cons.inj hstop).1 (by decide)

/-- A line that begins with other characters registers nothing. -/
theorem registered?_of_toList {text : String} {c : Char} {cs : List Char}
    (htext : text.toList = c :: cs) (hc : c ≠ ' ')
    (h : (c :: cs).dropPrefix? "runtime.registerIntent(".toList = none) (depth : Nat) :
    registered? (lineChars depth text) = none := by
  rw [registered?, unindented_lineChars, htext, unindented,
    List.dropWhile_cons_of_neg (by simpa using hc), h]

theorem registered?_front {c : Char} {cs : List Char} (hc : c ≠ ' ')
    (h : ∀ more, (c :: (cs ++ more)).dropPrefix? "runtime.registerIntent(".toList = none)
    (depth : Nat) (rest : String) :
    registered? (lineChars depth (String.ofList (c :: cs) ++ rest)) = none :=
  registered?_of_toList (by rw [String.toList_append, String.toList_ofList, List.cons_append]) hc
    (h rest.toList) depth

theorem registered?_blank : ∀ l ∈ linesAt 0 .blank, registered? l = none := by
  simp [linesAt, registered?, unindented, List.dropPrefix?]

theorem registered?_docComment (texts : List String) :
    ∀ code ∈ docComment texts, ∀ l ∈ linesAt 0 code, registered? l = none := by
  rw [docComment, List.forall_mem_append, List.forall_mem_cons, List.forall_mem_map]
  simp [linesAt, lineChars_zero, registered?, unindented, List.dropPrefix?]

theorem registered?_header (c : Contract) (kind : ModuleKind) :
    ∀ code ∈ header c kind, ∀ l ∈ linesAt 0 code, registered? l = none := by
  simp only [header, List.forall_mem_cons, linesAt, List.not_mem_nil, IsEmpty.forall_iff,
    implies_true, and_true, String.append_assoc]
  exact ⟨registered?_front (by decide) (fun _ => rfl) 0 _,
    registered?_front (by decide) (fun _ => rfl) 0 _, by decide⟩

theorem registered?_registryImport (c : Contract) (flavor : Flavor) :
    ∀ l ∈ linesAt 0 (registryImport c flavor), registered? l = none := by
  simp only [registryImport, linesAt, List.forall_mem_singleton, String.append_assoc]
  exact registered?_front (by decide) (fun _ => rfl) 0 _

theorem registered?_runtimeType : ∀ l ∈ linesAt 0 runtimeType, registered? l = none := by
  simp only [runtimeType, linesAt, linesAllAt, List.forall_mem_cons, List.forall_mem_append,
    List.not_mem_nil, IsEmpty.forall_iff, implies_true, and_true]
  exact ⟨registered?_of_toList String.toList_ofList (by decide) rfl 0,
    registered?_front (by decide) (fun _ => rfl) 1 _, by decide⟩

/-- The signatures of handlers register nothing, whatever the operations are called. -/
theorem registered?_handlersType {c : Contract} (h : c.WellFormed) :
    ∀ l ∈ linesAt 0 (handlersType c), registered? l = none := by
  rw [handlersType, linesAt, List.forall_mem_cons, List.forall_mem_append, forall_mem_linesAllAt,
    List.forall_mem_map, List.forall_mem_singleton]
  refine ⟨?_, fun op hop => ?_, by decide⟩
  · rw [String.append_assoc]
    exact registered?_front (by decide) (fun _ => rfl) 0 _
  · simp only [linesAt, List.forall_mem_singleton, handlerSignature, String.append_assoc]
    exact registered?_word (h.operations op hop).name 1 _

/-- **The bindings of a handler module are those of the contract's operations.** -/
theorem bindingsOf?_handlers {c : Contract} (h : c.WellFormed) (flavor : Flavor) :
    bindingsOf? c.name (c.generate flavor).handlers.text
      = some (c.operations.map bindingFor) := by
  rw [bindingsOf?, lines_handlers h]
  cases flavor with
  | typeScript =>
    refine bindingsIn?_registrar h ?_ ?_ fun op hop p hp => ?_
    · simp only [List.forall_mem_append, List.forall_mem_cons]
      refine ⟨registered?_header c _, registered?_registryImport c _, ?_, registered?_blank,
        registered?_runtimeType, registered?_blank, registered?_handlersType h, registered?_blank,
        List.forall_mem_nil _⟩
      simp only [typeImport, linesAt, List.forall_mem_singleton, String.append_assoc]
      exact registered?_front (by decide) (fun _ => rfl) 0 _
    · simp only [String.append_assoc]
      exact registered?_front (by decide) (fun _ => rfl) 0 _
    · have hp := (h.operations op hop).parameters p hp
      have hcomma : ',' ∉ p.type.text.toList := fun hmem =>
        absurd (hp.type.isTypeChar_text _ hmem) (by decide)
      rw [String.append_assoc]
      exact readsField_payloadField hp.name (by simp [List.isPrefixOf]) (by simp [hcomma])
  | javaScript =>
    refine bindingsIn?_registrar h ?_ ?_ fun op hop p hp => ?_
    · simp only [List.forall_mem_append, List.forall_mem_cons, List.forall_mem_map]
      refine ⟨⟨⟨⟨⟨⟨registered?_header c _, registered?_registryImport c _, registered?_blank,
        List.forall_mem_nil _⟩, ?_⟩, registered?_blank, List.forall_mem_nil _⟩,
        registered?_docComment _⟩, registered?_blank, List.forall_mem_nil _⟩,
        registered?_docComment _⟩
      simp only [commentImport, linesAt, List.forall_mem_singleton, String.append_assoc]
      exact fun n _ => registered?_front (by decide) (fun _ => rfl) 0 _
    · simp only [String.append_assoc]
      exact registered?_front (by decide) (fun _ => rfl) 0 _
    · have hp := (h.operations op hop).parameters p hp
      rw [← @String.append_empty (payloadField p)]
      exact readsField_payloadField hp.name rfl (by decide)

/-- **The modules of a source text agree with its contract on the intents**: the client module
exports the registry, and the handler module binds each entry, once and in order, to the
operation's own handler, with the operation's own parameters. -/
theorem modules_agree_on_intents {source : String} {c : Contract}
    (h : Contract.ofSource source = .ok c) (flavor : Flavor) :
    registryOf? c.name (c.generate flavor).client.text = some c.intents
      ∧ bindingsOf? c.name (c.generate flavor).handlers.text
        = some (c.operations.map fun op => ⟨op.name, op.name, op.parameterNames⟩)
      ∧ (c.operations.map (·.name)).Nodup :=
  have hwf := Contract.wellFormed_of_ofSource h
  ⟨registryOf?_client hwf flavor, bindingsOf?_handlers hwf flavor, hwf.nodup⟩

set_option maxRecDepth 2048 in
/-- An intent that looks like the end of its own entry, over two lines. -/
theorem modules_agree_on_intents_codelike :
    ∃ c, Contract.ofSource
        "interface P \x7b [Intent=\"\n\x7d, proof: null\", Proof=p] void f(double x, A y); \x7d;"
        = .ok c
      ∧ registryOf? "P" (c.generate .typeScript).client.text
        = some [⟨"f", "\n\x7d, proof: null", some "p"⟩]
      ∧ bindingsOf? "P" (c.generate .typeScript).handlers.text = some [⟨"f", "f", ["x", "y"]⟩] := by
  have hsource : Contract.ofSource
        "interface P \x7b [Intent=\"\n\x7d, proof: null\", Proof=p] void f(double x, A y); \x7d;"
      = .ok ⟨"P", none, none, [⟨"f", [⟨"x", .primitive "double"⟩, ⟨"y", .primitive "A"⟩],
        some (.primitive "void"),
        ⟨none, none, some "\n\x7d, proof: null", some "p", false, none⟩⟩]⟩ := by
    with_unfolding_all rfl
  have hread := modules_agree_on_intents hsource .typeScript
  exact ⟨_, hsource, hread.1, hread.2.1⟩

end IntentContract.Generated
