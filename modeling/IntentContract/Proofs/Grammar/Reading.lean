import IntentContract.Definition.Grammar

/-!
# What a reader takes

One statement for each of the small readers the grammar is put together from: on
which tokens it succeeds, with which value, and what it leaves. Each is an
equivalence, so it serves both ways – to run a reader on tokens at hand, and to
learn from a successful run what the tokens were.
-/

namespace IntentContract.Parser

variable {α β : Type} {p : Parser α} {f : α → Parser β} {ts mid rest : List Token}

/-- Running a reader whose first part succeeds. -/
theorem bind_of_ok {a : α} (h : p ts = .ok (a, mid)) : (p >>= f) ts = f a mid := by
  simp only [bind, h]

/-- Running a reader whose first part fails. -/
theorem bind_of_error {e : SyntaxError} (h : p ts = .error e) : (p >>= f) ts = .error e := by
  simp only [bind, h]

/-- **One reader after another**: both succeed, the second on what the first
leaves. -/
theorem bind_eq_ok_iff {b : β} :
    (p >>= f) ts = .ok (b, rest) ↔ ∃ a mid, p ts = .ok (a, mid) ∧ f a mid = .ok (b, rest) := by
  constructor
  · intro h
    cases hp : p ts with
    | error e =>
      rw [bind_of_error hp] at h
      cases h
    | ok r =>
      obtain ⟨a, mid⟩ := r
      rw [bind_of_ok hp] at h
      exact ⟨a, mid, rfl, h⟩
  · rintro ⟨a, mid, hp, h⟩
    rw [bind_of_ok hp]
    exact h

/-- A value that takes no token. -/
theorem pure_eq_ok_iff {a b : α} :
    (pure a : Parser α) ts = .ok (b, rest) ↔ b = a ∧ rest = ts := by
  show Except.ok (a, ts) = Except.ok (b, rest) ↔ _
  simp only [Except.ok.injEq, Prod.mk.injEq]
  exact ⟨fun h => ⟨h.1.symm, h.2.symm⟩, fun h => ⟨h.1.symm, h.2.symm⟩⟩

/-- A token is passed over if it comes next; else nothing is taken. -/
theorem eat_eq_ok_iff {t : Token} {b : Bool} :
    eat t ts = .ok (b, rest)
      ↔ (b = true ∧ ts = t :: rest) ∨ (b = false ∧ rest = ts ∧ ts.head? ≠ some t) := by
  unfold eat
  cases ts with
  | nil => cases b <;> simp [eq_comm]
  | cons t' ts =>
    by_cases ht : t' = t
    · subst ht
      cases b <;> simp
    · have ht' : ¬ t = t' := fun h => ht h.symm
      cases b <;> simp [ht, ht', eq_comm]

/-- A look at the next token takes nothing. -/
theorem check_eq_ok_iff {t : Token} {b : Bool} :
    check t ts = .ok (b, rest) ↔ b = (ts.head? == some t) ∧ rest = ts := by
  unfold check
  simp only [Except.ok.injEq, Prod.mk.injEq]
  exact ⟨fun h => ⟨h.1.symm, h.2.symm⟩, fun h => ⟨h.1.symm, h.2.symm⟩⟩

/-- A token that must come next is read exactly where it stands. -/
theorem expect_eq_ok_iff {t : Token} {e : Expectation} {u : Unit} :
    (eat t >>= fun b => if b = true then pure () else misfit e) ts = .ok (u, rest)
      ↔ ts = t :: rest := by
  rw [bind_eq_ok_iff]
  constructor
  · rintro ⟨b, mid, heat, h⟩
    rcases eat_eq_ok_iff.mp heat with ⟨rfl, rfl⟩ | ⟨rfl, -, -⟩
    · rw [(pure_eq_ok_iff.mp h).2]
    · cases h
  · rintro rfl
    exact ⟨true, rest, eat_eq_ok_iff.mpr (.inl ⟨rfl, rfl⟩), rfl⟩

/-- A symbol is read exactly where it stands. -/
theorem symbol_eq_ok_iff {s : Symbol} {u : Unit} :
    symbol s ts = .ok (u, rest) ↔ ts = .symbol s :: rest :=
  expect_eq_ok_iff

/-- A keyword is read exactly where it stands. -/
theorem keyword_eq_ok_iff {k : Keyword} {u : Unit} :
    keyword k ts = .ok (u, rest) ↔ ts = .keyword k :: rest :=
  expect_eq_ok_iff

/-- A name is read off a token that can serve as one. -/
theorem name_eq_ok_iff {n : String} :
    name ts = .ok (n, rest) ↔ ∃ t, ts = t :: rest ∧ t.name? = some n := by
  unfold name
  cases ts with
  | nil => simp
  | cons t ts =>
    dsimp only
    constructor
    · intro h
      split at h
      · next m hm =>
        simp only [Except.ok.injEq, Prod.mk.injEq] at h
        obtain ⟨rfl, rfl⟩ := h
        exact ⟨t, rfl, hm⟩
      · cases h
    · rintro ⟨t', heq, ht⟩
      obtain ⟨rfl, rfl⟩ : t = t' ∧ ts = rest := by simpa using heq
      rw [ht]

/-- Running a name on a token that can serve as one. -/
theorem name_cons {t : Token} {n : String} (h : t.name? = some n) (rest : List Token) :
    name (t :: rest) = .ok (n, rest) :=
  name_eq_ok_iff.mpr ⟨t, rfl, h⟩

/-! ## Lists of items -/

section Lists

variable {item : Parser α} {a : α}

/-- Behind an item and a comma the list goes on. -/
theorem commaList_of_comma (h : item ts = .ok (a, .symbol .comma :: rest))
    (hlt : rest.length < ts.length) :
    commaList item ts = (commaList item >>= fun as => pure (a :: as)) rest := by
  show commaItems item ts = _
  rw [commaItems, h]
  dsimp only
  rw [if_pos hlt]
  cases hrest : commaItems item rest with
  | error e => exact (bind_of_error (p := commaList item) hrest).symm
  | ok r => rw [bind_of_ok (p := commaList item) hrest]; rfl

/-- Behind an item without a comma the list ends. -/
theorem commaList_of_end (h : item ts = .ok (a, rest))
    (hc : rest.head? ≠ some (.symbol .comma)) : commaList item ts = .ok ([a], rest) := by
  show commaItems item ts = _
  rw [commaItems, h]
  split
  · next heq => cases heq
  · next heq =>
    simp only [Except.ok.injEq, Prod.mk.injEq] at heq
    exact absurd (by rw [heq.2]; rfl) hc
  · next heq =>
    simp only [Except.ok.injEq, Prod.mk.injEq] at heq
    rw [heq.1, heq.2]

variable {stop : Option Token → Bool}

/-- Where the next token says so, the list ends. -/
theorem untilStop_of_stop (h : stop ts.head? = true) :
    untilStop stop item ts = .ok ([], ts) := by
  show itemsUntil stop item ts = _
  rw [itemsUntil, if_pos h]

/-- Elsewhere an item is read and the list goes on. -/
theorem untilStop_of_item (hs : stop ts.head? = false) (h : item ts = .ok (a, rest))
    (hlt : rest.length < ts.length) :
    untilStop stop item ts = (untilStop stop item >>= fun as => pure (a :: as)) rest := by
  show itemsUntil stop item ts = _
  rw [itemsUntil, hs, h]
  simp only [Bool.false_eq_true, ↓reduceIte, hlt]
  cases hrest : itemsUntil stop item rest with
  | error e => exact (bind_of_error (p := untilStop stop item) hrest).symm
  | ok r => rw [bind_of_ok (p := untilStop stop item) hrest]; rfl

end Lists

end IntentContract.Parser

/-! ## Names of types -/

namespace IntentContract.Grammar

/-- **The names of types**: the tokens that make up the name of a type, and
whether one more `long` would belong to it. -/
inductive TypeWords : List Token → String → Bool → Prop where
  | plain {n : String} (hu : n ≠ "unsigned") (hr : n ≠ "unrestricted") :
      TypeWords [.identifier n] n (n == "long")
  | longLong : TypeWords [.identifier "long", .identifier "long"] "long long" false
  | unsignedShort {t : Token} (h : t.name? = some "short") :
      TypeWords [.identifier "unsigned", t] "unsigned short" false
  | unsignedLong {t : Token} (h : t.name? = some "long") :
      TypeWords [.identifier "unsigned", t] "unsigned long" true
  | unsignedLongLong {t : Token} (h : t.name? = some "long") :
      TypeWords [.identifier "unsigned", t, .identifier "long"] "unsigned long long" false
  | unrestricted {t : Token} {word : String} (h : t.name? = some word)
      (hw : word = "float" ∨ word = "double") :
      TypeWords [.identifier "unrestricted", t] ("unrestricted " ++ word) false

variable {ts rest : List Token} {n : String}

/-- What is read as the name of a type is one, and is read to its end. -/
theorem typeWords_of_typeName (h : typeName ts = .ok (n, rest)) :
    ∃ used more, TypeWords used n more ∧ ts = used ++ rest
      ∧ (more = true → rest.head? ≠ some (.identifier "long")) := by
  have hnever : false = true → rest.head? ≠ some (.identifier "long") :=
    fun h => absurd h Bool.false_ne_true
  unfold typeName at h
  split at h
  · next first rest' =>
    split at h
    · next hfirst =>
      subst hfirst
      split at h
      · cases h
      · next word rest'' hname =>
        obtain ⟨t, rfl, ht⟩ := Parser.name_eq_ok_iff.mp hname
        split at h
        · next hw =>
          subst hw
          simp only [Except.ok.injEq, Prod.mk.injEq] at h
          obtain ⟨rfl, rfl⟩ := h
          exact ⟨_, _, .unsignedShort ht, rfl, hnever⟩
        · split at h
          · next hw =>
            subst hw
            split at h
            · simp only [Except.ok.injEq, Prod.mk.injEq] at h
              obtain ⟨rfl, rfl⟩ := h
              exact ⟨_, _, .unsignedLongLong ht, rfl, hnever⟩
            · next hno =>
              simp only [Except.ok.injEq, Prod.mk.injEq] at h
              obtain ⟨rfl, rfl⟩ := h
              refine ⟨_, _, .unsignedLong ht, rfl, fun _ hhead => ?_⟩
              obtain ⟨rest', rfl⟩ := List.head?_eq_some_iff.mp hhead
              exact hno rest' rfl
          · cases h
    · next hu =>
      split at h
      · next hfirst =>
        subst hfirst
        split at h
        · cases h
        · next word rest'' hname =>
          obtain ⟨t, rfl, ht⟩ := Parser.name_eq_ok_iff.mp hname
          split at h
          · next hw =>
            simp only [Except.ok.injEq, Prod.mk.injEq] at h
            obtain ⟨rfl, rfl⟩ := h
            exact ⟨_, _, .unrestricted ht (by simpa using hw), rfl, hnever⟩
          · cases h
      · next hr =>
        split at h
        · next hl =>
          subst hl
          split at h
          · simp only [Except.ok.injEq, Prod.mk.injEq] at h
            obtain ⟨rfl, rfl⟩ := h
            exact ⟨_, _, .longLong, rfl, hnever⟩
          · next hno =>
            simp only [Except.ok.injEq, Prod.mk.injEq] at h
            obtain ⟨rfl, rfl⟩ := h
            refine ⟨_, _, .plain hu hr, rfl, fun _ hhead => ?_⟩
            obtain ⟨rest'', rfl⟩ := List.head?_eq_some_iff.mp hhead
            exact hno rest'' rfl
        · next hl =>
          simp only [Except.ok.injEq, Prod.mk.injEq] at h
          obtain ⟨rfl, rfl⟩ := h
          exact ⟨_, _, .plain hu hr, rfl, fun hmore => absurd (by simpa using hmore) hl⟩
  · cases h

/-- The name of a type is read wherever it is not followed by a word of its own. -/
theorem typeName_append {used : List Token} {more : Bool} (h : TypeWords used n more)
    (hstop : more = true → rest.head? ≠ some (.identifier "long")) :
    typeName (used ++ rest) = .ok (n, rest) := by
  cases h with
  | plain hu hr =>
    rw [List.singleton_append]
    unfold typeName
    simp only [hu, hr, ↓reduceIte]
    split
    · next hl =>
      split
      · exact absurd rfl (hstop (by simpa using hl))
      · rw [hl]
    · rfl
  | longLong => rfl
  | unsignedShort h => simp [typeName, Parser.name_cons h]
  | unsignedLong h =>
    simp only [typeName, List.cons_append, List.nil_append, Parser.name_cons h, ↓reduceIte]
    rw [if_neg (by decide)]
    split
    · exact absurd rfl (hstop rfl)
    · rfl
  | unsignedLongLong h => simp [typeName, Parser.name_cons h]
  | unrestricted h hw =>
    simp only [typeName, List.cons_append, List.nil_append, Parser.name_cons h, ↓reduceIte]
    rw [if_neg (by decide), if_pos (by simpa using hw)]

/-! ## Types

One equation for each step of reading a type: where one starts, behind one that
may be marked as nullable, and behind a complete one. -/

section Types

variable {stack : List OpenType} {d : TypeDescriptor}

/-- A parenthesis opens a union. -/
theorem typeStart_lparen (stack : List OpenType) (rest : List Token) :
    typeStart stack (.symbol .lparen :: rest) = typeStart (.union [] :: stack) rest := by
  rw [typeStart]

/-- The name of a type is not read off a parenthesis. -/
theorem head?_of_typeName (h : typeName ts = .ok (n, rest)) :
    ts.head? ≠ some (.symbol .lparen) := by
  intro hhead
  obtain ⟨ts', rfl⟩ := List.head?_eq_some_iff.mp hhead
  cases h

/-- A name in front of an angle bracket opens a generic. -/
theorem typeStart_of_langle (h : typeName ts = .ok (n, .symbol .langle :: rest)) :
    typeStart stack ts = typeStart (.generic n [] :: stack) rest := by
  rw [typeStart.eq_def]
  split
  · exact absurd rfl (head?_of_typeName h)
  · split
    · next h' => cases h.symm.trans h'
    · next h' =>
      obtain ⟨rfl, rfl⟩ : n = _ ∧ rest = _ := by simpa using h.symm.trans h'
      rfl
    · next hno h' =>
      obtain ⟨rfl, rfl⟩ : n = _ ∧ .symbol .langle :: rest = _ := by simpa using h.symm.trans h'
      exact absurd rfl (hno rest)

/-- A name alone is a type. -/
theorem typeStart_of_name (h : typeName ts = .ok (n, rest))
    (hl : rest.head? ≠ some (.symbol .langle)) :
    typeStart stack ts = typeMark stack (.primitive n) rest := by
  rw [typeStart.eq_def]
  split
  · exact absurd rfl (head?_of_typeName h)
  · split
    · next h' => cases h.symm.trans h'
    · next h' =>
      obtain ⟨rfl, rfl⟩ : n = _ ∧ rest = _ := by simpa using h.symm.trans h'
      exact absurd rfl hl
    · next h' =>
      obtain ⟨rfl, rfl⟩ : n = _ ∧ rest = _ := by simpa using h.symm.trans h'
      rfl

/-- **What a type may start with**: a parenthesis, or a name with or without an
angle bracket behind it. -/
theorem typeStart_cases {d' : TypeDescriptor} (h : typeStart stack ts = .ok (d', rest)) :
    (∃ ts', ts = .symbol .lparen :: ts')
      ∨ (∃ kind ts', typeName ts = .ok (kind, .symbol .langle :: ts'))
      ∨ ∃ n ts', typeName ts = .ok (n, ts') ∧ ts'.head? ≠ some (.symbol .langle) := by
  rw [typeStart.eq_def] at h
  split at h
  · exact .inl ⟨_, rfl⟩
  · split at h
    · cases h
    · next hname => exact .inr (.inl ⟨_, _, hname⟩)
    · next hno hname =>
      refine .inr (.inr ⟨_, _, hname, fun hhead => ?_⟩)
      obtain ⟨ts', hts⟩ := List.head?_eq_some_iff.mp hhead
      exact hno ts' hts

/-- A question mark makes a type nullable. -/
theorem typeMark_question (stack : List OpenType) (d : TypeDescriptor) (rest : List Token) :
    typeMark stack d (.symbol .question :: rest) = typeEnd stack (.nullable d) rest := by
  rw [typeMark]

/-- Without a question mark a type is complete. -/
theorem typeMark_of_ne (h : ts.head? ≠ some (.symbol .question)) :
    typeMark stack d ts = typeEnd stack d ts := by
  rw [typeMark]
  intro rest heq
  exact h (by rw [heq]; rfl)

/-- A type complete with nothing open around it is the result. -/
theorem typeEnd_nil (d : TypeDescriptor) (ts : List Token) :
    typeEnd [] d ts = .ok (d, ts) := by
  rw [typeEnd]

/-- A union goes on behind `or`. -/
theorem typeEnd_or (members : List TypeDescriptor) :
    typeEnd (.union members :: stack) d (.keyword .or :: rest)
      = typeStart (.union (members ++ [d]) :: stack) rest := by
  rw [typeEnd]

/-- A union of at least two ends with its parenthesis. -/
theorem typeEnd_rparen {members : List TypeDescriptor} (h : members ≠ []) :
    typeEnd (.union members :: stack) d (.symbol .rparen :: rest)
      = typeMark stack (.union (members ++ [d])) rest := by
  obtain ⟨m, ms, rfl⟩ := List.exists_cons_of_ne_nil h
  rw [typeEnd]
  · intro h'
    cases h'

/-- A generic goes on behind a comma. -/
theorem typeEnd_comma (kind : String) (args : List TypeDescriptor) :
    typeEnd (.generic kind args :: stack) d (.symbol .comma :: rest)
      = typeStart (.generic kind (args ++ [d]) :: stack) rest := by
  rw [typeEnd]

/-- A generic ends with its bracket. -/
theorem typeEnd_rangle (kind : String) (args : List TypeDescriptor) :
    typeEnd (.generic kind args :: stack) d (.symbol .rangle :: rest)
      = typeMark stack (.generic kind (args ++ [d])) rest := by
  rw [typeEnd]

/-- **What may follow a complete type**: nothing in particular, or the next part
of the innermost open type. -/
theorem typeEnd_cases {d' : TypeDescriptor} (h : typeEnd stack d ts = .ok (d', rest)) :
    stack = []
      ∨ (∃ members stack' ts', stack = .union members :: stack' ∧ ts = .keyword .or :: ts')
      ∨ (∃ members stack' ts', stack = .union members :: stack' ∧ members ≠ []
          ∧ ts = .symbol .rparen :: ts')
      ∨ (∃ kind args stack' ts', stack = .generic kind args :: stack'
          ∧ ts = .symbol .comma :: ts')
      ∨ ∃ kind args stack' ts', stack = .generic kind args :: stack'
          ∧ ts = .symbol .rangle :: ts' := by
  unfold typeEnd at h
  split at h
  · exact .inl rfl
  · exact .inr (.inl ⟨_, _, _, rfl, rfl⟩)
  · cases h
  · next hne =>
    exact .inr (.inr (.inl ⟨_, _, _, rfl, hne, rfl⟩))
  · cases h
  · exact .inr (.inr (.inr (.inl ⟨_, _, _, _, rfl, rfl⟩)))
  · exact .inr (.inr (.inr (.inr ⟨_, _, _, _, rfl, rfl⟩)))
  · cases h

end Types

/-! ## Values of extended attributes -/

/-- Without a parenthesis there is no argument list to skip. -/
theorem skipParens_of_ne (h : ts.head? ≠ some (.symbol .lparen)) :
    skipParens ts = .ok ((), ts) := by
  unfold skipParens
  split
  · exact absurd rfl h
  · rfl

/-- Names joined to a first one by colons. -/
abbrev joined (ns : List String) : List Token :=
  ns.flatMap fun n => [.symbol .colon, .identifier n]

/-- What is joined to a first name is names behind colons. -/
theorem eq_joined_append (ts : List Token) :
    ∃ ns, ts = joined ns ++ (qualifiers ts).2
      ∧ ∀ first, first ++ (qualifiers ts).1 = Text.join ":" (first :: ns) := by
  fun_induction qualifiers ts with
  | case1 n rest more rest' hq ih =>
    rw [hq] at ih
    obtain ⟨ns, hns, hjoin⟩ := ih
    refine ⟨n :: ns, ?_, fun first => ?_⟩
    · rw [joined, List.flatMap_cons, List.append_assoc, ← hns]
      rfl
    · rw [Text.join, ← hjoin n, String.append_assoc, String.append_assoc]
      exact List.cons_ne_nil n ns
  | case2 ts => exact ⟨[], rfl, fun first => String.append_empty⟩

/-- **The forms of a value**: a literal, names in parentheses, or names joined by
colons. -/
inductive ReadsValue : List Token → AttributeValue → List Token → Prop where
  | string (content : String) (rest : List Token) :
      ReadsValue (.string content :: rest) (.string (quoted content)) rest
  | integer (n : Int) (rest : List Token) :
      ReadsValue (.integer n :: rest) (.identifier (Text.intText n)) rest
  | float (x : Double) (rest : List Token) :
      ReadsValue (.float x :: rest) (.identifier (x.text floatStyle)) rest
  | list {names : List String} {mid rest : List Token}
      (h : Parser.commaList Parser.name mid = .ok (names, .symbol .rparen :: rest)) :
      ReadsValue (.symbol .lparen :: mid) (.list names) rest
  | names {t : Token} {first : String} {mid : List Token} (h : t.name? = some first) :
      ReadsValue (t :: mid) (.identifier (first ++ (qualifiers mid).1)) (qualifiers mid).2

/-- A value is read exactly in one of its forms. -/
theorem attributeValue_eq_ok_iff {v : AttributeValue} :
    attributeValue ts = .ok (v, rest) ↔ ReadsValue ts v rest := by
  constructor
  · intro h
    unfold attributeValue at h
    split at h
    · simp only [Except.ok.injEq, Prod.mk.injEq] at h
      obtain ⟨rfl, rfl⟩ := h
      exact .string _ _
    · simp only [Except.ok.injEq, Prod.mk.injEq] at h
      obtain ⟨rfl, rfl⟩ := h
      exact .integer _ _
    · simp only [Except.ok.injEq, Prod.mk.injEq] at h
      obtain ⟨rfl, rfl⟩ := h
      exact .float _ _
    · split at h
      · cases h
      · next hlist =>
        simp only [Except.ok.injEq, Prod.mk.injEq] at h
        obtain ⟨rfl, rfl⟩ := h
        exact .list hlist
      · cases h
    · split at h
      · cases h
      · next hname =>
        obtain ⟨t, rfl, ht⟩ := Parser.name_eq_ok_iff.mp hname
        simp only [Except.ok.injEq, Prod.mk.injEq] at h
        obtain ⟨rfl, rfl⟩ := h
        exact .names ht
  · intro h
    cases h with
    | string => rfl
    | integer => rfl
    | float => rfl
    | list h => rw [attributeValue, h]
    | @names t first mid h =>
      unfold attributeValue
      cases t with
      | keyword k => simp only [Parser.name_cons h]
      | identifier n => simp only [Parser.name_cons h]
      | symbol s => cases h
      | string s => cases h
      | integer n => cases h
      | float x => cases h

/-- The texts of an enumeration are read if there are any. -/
theorem someEnumValues_eq_ok_iff {values : List String} :
    someEnumValues ts = .ok (values, rest) ↔ enumValues ts = (values, rest) ∧ values ≠ [] := by
  unfold someEnumValues
  split
  · next h =>
    rw [h]
    constructor
    · intro hrun
      cases hrun
    · rintro ⟨heq, hne⟩
      exact absurd (Prod.mk.inj heq).1.symm hne
  · next hne h =>
    rw [h]
    simp only [Except.ok.injEq, Prod.mk.injEq]
    constructor
    · rintro ⟨rfl, rfl⟩
      exact ⟨⟨rfl, rfl⟩, hne⟩
    · exact fun h => h.1

end IntentContract.Grammar
