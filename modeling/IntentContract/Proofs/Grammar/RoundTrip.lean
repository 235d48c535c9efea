import IntentContract.Proofs.Definition.Printer
import IntentContract.Proofs.Grammar.Document

/-!
# Printed definitions are read back

For every tree that is well-formed in the lexicon of what can be printed, parsing the
printed text gives the tree (`parse_print`). So the parser is complete: whatever
a tree of that kind says, there is a text that says it.

The grammar decides by the next token at many points – whether a bracket opens extended
attributes, whether a name goes on, whether a type is marked as nullable – and the
printed parts stand directly one behind the other. So for each reader it matters which
tokens may follow what it reads. `Reads` says that a reader takes exactly the given
tokens, as the given value, wherever the token behind them is as it should be. Its rules
ask for just this when two readers are put together.
-/

namespace IntentContract

/-! ## How a part begins -/

/-- Tokens that begin with one of a kind. -/
def Begins (P : Token → Prop) (ts : List Token) : Prop :=
  ∃ t ts', ts = t :: ts' ∧ P t

namespace Begins

variable {P : Token → Prop} {ts : List Token}

theorem cons {t : Token} (h : P t) (ts : List Token) : Begins P (t :: ts) :=
  ⟨t, ts, rfl, h⟩

theorem mono {Q : Token → Prop} (h : Begins P ts) (hQ : ∀ t, P t → Q t) : Begins Q ts := by
  obtain ⟨t, ts', hts, ht⟩ := h
  exact ⟨t, ts', hts, hQ t ht⟩

theorem append (h : Begins P ts) (us : List Token) : Begins P (ts ++ us) := by
  obtain ⟨t, ts', rfl, ht⟩ := h
  exact cons ht (ts' ++ us)

/-- A part that may be missing does not matter if both it and what follows are of the
kind. -/
theorem flag_append {t : Token} (ht : P t) (present : Bool) (h : Begins P ts) :
    Begins P (flag t present ++ ts) := by
  cases present with
  | true => exact cons ht ts
  | false => exact h

/-- Extended attributes may stand in front if their bracket is of the kind. -/
theorem attributes_append (hb : P (.symbol .lbracket)) (attributes : List ExtendedAttribute)
    (h : Begins P ts) : Begins P (attributesTokens attributes ++ ts) := by
  cases attributes with
  | nil => exact h
  | cons a as => exact cons hb _

/-- What comes next in front of such tokens. -/
theorem next {A : Option Token → Prop} (h : Begins P ts) (hA : ∀ t, P t → A (some t))
    (n : Option Token) : A (ts.head?.or n) := by
  obtain ⟨t, ts', rfl, ht⟩ := h
  exact hA t ht

theorem next_ne {t : Token} (h : Begins (· ≠ t) ts) (n : Option Token) :
    ts.head?.or n ≠ some t :=
  h.next (A := (· ≠ some t)) (fun _ hu heq => hu (Option.some.inj heq)) n

end Begins

/-! ## Readers on printed tokens -/

namespace Parser

variable {α β : Type} {p : Parser α} {A B : Option Token → Prop} {us vs : List Token} {a : α}

/-- **A reader takes exactly some tokens, as some value**, if the next token behind them
is as `next` says; and the tokens can be printed. -/
structure Reads (p : Parser α) (next : Option Token → Prop) (ts : List Token) (a : α) :
    Prop where
  printable : ∀ t ∈ ts, t.IsPrintable
  run : ∀ rest, next rest.head? → p (ts ++ rest) = .ok (a, rest)

/-- One reader after another, if the tokens of the second may follow those of the
first. -/
theorem Reads.bind {f : α → Parser β} {b : β} (hp : Reads p A us a) (hf : Reads (f a) B vs b)
    (hnext : ∀ n, B n → A (vs.head?.or n)) : Reads (p >>= f) B (us ++ vs) b where
  printable := List.forall_mem_append.mpr ⟨hp.printable, hf.printable⟩
  run rest hrest := by
    have hmid : A (vs ++ rest).head? := by
      rw [List.head?_append]
      exact hnext _ hrest
    rw [List.append_assoc, bind_of_ok (hp.run (vs ++ rest) hmid)]
    exact hf.run rest hrest

/-- A reader that takes nothing here. -/
theorem Reads.pass {f : α → Parser β} {b : β} (hp : Reads p A [] a)
    (hf : Reads (f a) B vs b) (hnext : ∀ n, B n → A (vs.head?.or n)) :
    Reads (p >>= f) B vs b :=
  hp.bind hf hnext

/-- A reader of one token, which anything may follow. -/
theorem Reads.take {f : α → Parser β} {b : β} {t : Token} (hp : Reads p (fun _ => True) [t] a)
    (hf : Reads (f a) B vs b) : Reads (p >>= f) B (t :: vs) b :=
  hp.bind hf fun _ _ => trivial

/-- A reader behind which the next one takes nothing. -/
theorem Reads.bind_nil {f : α → Parser β} {b : β} (hp : Reads p A us a)
    (hf : Reads (f a) B [] b) (hnext : ∀ n, B n → A n) : Reads (p >>= f) B us b := by
  have hboth := hp.bind hf hnext
  rwa [List.append_nil] at hboth

theorem Reads.mono (hp : Reads p A us a) (h : ∀ n, B n → A n) : Reads p B us a :=
  ⟨hp.printable, fun rest hrest => hp.run rest (h _ hrest)⟩

theorem reads_pure (a : α) : Reads (pure a) A [] a :=
  ⟨List.forall_mem_nil _, fun _ _ => rfl⟩

theorem Reads.ite_true {q : Parser α} (hp : Reads p A us a) :
    Reads (if true = true then p else q) A us a :=
  hp

theorem Reads.ite_false {q : Parser α} (hp : Reads p A us a) :
    Reads (if false = true then q else p) A us a :=
  hp

theorem reads_eat {t : Token} (ht : t.IsPrintable) : Reads (eat t) (fun _ => True) [t] true :=
  ⟨List.forall_mem_singleton.mpr ht, fun _ _ => eat_eq_ok_iff.mpr (.inl ⟨rfl, rfl⟩)⟩

theorem reads_eat_none (t : Token) : Reads (eat t) (· ≠ some t) [] false :=
  ⟨List.forall_mem_nil _, fun _ h => eat_eq_ok_iff.mpr (.inr ⟨rfl, rfl, h⟩)⟩

/-- A token that may be there is read as whether it is. -/
theorem reads_flag {t : Token} (ht : t.IsPrintable) (present : Bool) :
    Reads (eat t) (· ≠ some t) (flag t present) present := by
  cases present with
  | true => exact (reads_eat ht).mono fun _ _ => trivial
  | false => exact reads_eat_none t

theorem reads_check (t : Token) (b : Bool) : Reads (check t) (fun n => b = (n == some t)) [] b :=
  ⟨List.forall_mem_nil _, fun _ h => check_eq_ok_iff.mpr ⟨h, rfl⟩⟩

theorem reads_symbol (s : Symbol) : Reads (symbol s) (fun _ => True) [.symbol s] () :=
  ⟨List.forall_mem_singleton.mpr (Token.isPrintable_symbol s),
    fun _ _ => symbol_eq_ok_iff.mpr rfl⟩

theorem reads_keyword (k : Keyword) : Reads (keyword k) (fun _ => True) [.keyword k] () :=
  ⟨List.forall_mem_singleton.mpr (Token.isPrintable_keyword k),
    fun _ _ => keyword_eq_ok_iff.mpr rfl⟩

theorem reads_name {n : String} (h : isWord n = true) :
    Reads name (fun _ => True) [.ofWord n] n :=
  ⟨List.forall_mem_singleton.mpr (Token.isPrintable_ofWord h),
    fun rest _ => name_cons (Token.name?_ofWord n) rest⟩

/-! ### Lists -/

/-- Parts that can be printed, with a separator that can. -/
theorem printable_separated {between : Token} {parts : List (List Token)}
    (hb : between.IsPrintable) (h : ∀ part ∈ parts, ∀ t ∈ part, t.IsPrintable) :
    ∀ t ∈ separated between parts, t.IsPrintable := by
  cases parts with
  | nil => exact List.forall_mem_nil _
  | cons part parts =>
    rw [List.forall_mem_cons] at h
    refine List.forall_mem_append.mpr ⟨h.1, fun t ht => ?_⟩
    obtain ⟨q, hq, ht⟩ := List.mem_flatMap.mp ht
    rcases List.mem_cons.mp ht with rfl | ht
    · exact hb
    · exact h.2 q hq t ht

variable {item : Parser α} {tok : α → List Token} {as : List α}

/-- A list with commas is read back if its items are, also in front of a comma. -/
theorem Reads.commaList (hne : as ≠ []) (h : ∀ a ∈ as, Reads item A (tok a) a)
    (hcomma : A (some (.symbol .comma))) :
    Reads (commaList item) (fun n => A n ∧ n ≠ some (.symbol .comma))
      (separated (.symbol .comma) (as.map tok)) as := by
  refine ⟨printable_separated (Token.isPrintable_symbol _) ?_, fun rest hrest => ?_⟩
  · intro part hpart
    obtain ⟨a, ha, rfl⟩ := List.mem_map.mp hpart
    exact (h a ha).printable
  · induction as with
    | nil => exact absurd rfl hne
    | cons a as ih =>
      rw [List.forall_mem_cons] at h
      cases as with
      | nil =>
        have hrun := h.1.run rest hrest.1
        rw [List.map_singleton, separated, List.flatMap_nil, List.append_nil]
        exact commaList_of_end hrun hrest.2
      | cons b bs =>
        have hmore := ih (List.cons_ne_nil b bs) h.2
        have hrun := h.1.run
          (.symbol .comma :: (separated (.symbol .comma) ((b :: bs).map tok) ++ rest)) hcomma
        rw [List.map_cons, List.map_cons, separated_cons_cons, List.append_assoc,
          List.cons_append]
        rw [List.map_cons] at hrun hmore
        have hlt : ∀ us : List Token, us.length < (tok a ++ .symbol .comma :: us).length := by
          intro us
          rw [List.length_append, List.length_cons]
          omega
        rw [commaList_of_comma hrun (hlt _), bind_of_ok hmore]
        rfl

/-- A list up to some token is read back if no item begins with that token. -/
theorem Reads.untilStop {stop : Option Token → Bool}
    (h : ∀ a ∈ as, Reads item (fun _ => True) (tok a) a)
    (hbegin : ∀ a ∈ as, Begins (fun t => stop (some t) = false) (tok a)) :
    Reads (untilStop stop item) (fun n => stop n = true) (as.map tok).flatten as := by
  refine ⟨fun t ht => ?_, fun rest hrest => ?_⟩
  · obtain ⟨part, hpart, ht⟩ := List.mem_flatten.mp ht
    obtain ⟨a, ha, rfl⟩ := List.mem_map.mp hpart
    exact (h a ha).printable t ht
  · induction as with
    | nil => exact untilStop_of_stop hrest
    | cons a as ih =>
      rw [List.forall_mem_cons] at h hbegin
      have hmore := ih h.2 hbegin.2
      have hrun := h.1.run ((as.map tok).flatten ++ rest) trivial
      rw [List.map_cons, List.flatten_cons, List.append_assoc]
      obtain ⟨t, ts, hts, ht⟩ := hbegin.1
      have hstop : stop (tok a ++ ((as.map tok).flatten ++ rest)).head? = false := by
        rw [hts]
        exact ht
      have hlt : ∀ us : List Token, us.length < (tok a ++ us).length := by
        intro us
        rw [hts, List.length_append, List.length_cons]
        omega
      rw [untilStop_of_item hstop hrun (hlt _), bind_of_ok hmore]
      rfl

end Parser

namespace Grammar

open IntentContract.Parser

/-! ## Types -/

/-- A token that a printed type begins with. -/
def StartsType (t : Token) : Prop :=
  t = .symbol .lparen ∨ ∃ n, t = .identifier n ∧ isModifier t = false

/-- What may follow the name of a type. -/
def EndsName (n : Option Token) : Prop :=
  n ≠ some (.symbol .langle) ∧ n ≠ some (.identifier "long")

/-- What may follow a type. -/
def EndsType (n : Option Token) : Prop :=
  EndsName n ∧ n ≠ some (.symbol .question)

instance : DecidablePred EndsName :=
  fun n => inferInstanceAs (Decidable (n ≠ _ ∧ n ≠ _))

instance : DecidablePred EndsType :=
  fun n => inferInstanceAs (Decidable (EndsName n ∧ n ≠ _))

/-- The tokens of the name of a type are read as its name. -/
theorem typeWords_typeNameTokens {n : String} (h : isTypeName n = true) :
    ∃ more, TypeWords (typeNameTokens n) n more := by
  by_cases hn : n ∈ compoundNames.map Prod.fst
  · simp only [compoundNames, List.map_cons, List.map_nil, List.mem_cons, List.not_mem_nil,
      or_false] at hn
    rcases hn with rfl | rfl | rfl | rfl | rfl | rfl
    · exact ⟨_, .unsignedShort rfl⟩
    · exact ⟨_, .unsignedLong rfl⟩
    · exact ⟨_, .unsignedLongLong rfl⟩
    · exact ⟨_, .longLong⟩
    · exact ⟨_, .unrestricted rfl (.inl rfl)⟩
    · exact ⟨_, .unrestricted rfl (.inr rfl)⟩
  · have hnone : compoundNames.lookup n = none := by
      refine List.lookup_eq_none_iff.mpr fun q hq => bne_iff_ne.mpr ?_
      rintro rfl
      exact hn (List.mem_map_of_mem hq)
    rw [isTypeName, hnone] at h
    rw [typeNameTokens, hnone]
    simp only [Option.isSome_none, Bool.false_or, Bool.and_eq_true, bne_iff_ne] at h
    exact ⟨_, .plain h.1.2 h.2⟩

/-- The words of the name of a type are identifiers. -/
theorem printable_typeNameTokens {n : String} (h : isTypeName n = true) :
    ∀ t ∈ typeNameTokens n, t.IsPrintable := by
  have hwords : ∀ w ∈ (compoundNames.lookup n).getD [n], isIdentifier w = true := by
    cases hl : compoundNames.lookup n with
    | none =>
      rw [isTypeName, hl] at h
      simp only [Option.isSome_none, Bool.false_or, Bool.and_eq_true] at h
      exact List.forall_mem_singleton.mpr h.1.1
    | some words =>
      rw [List.lookup_eq_findSome?] at hl
      obtain ⟨q, hq, hwords⟩ := List.exists_of_findSome?_eq_some hl
      obtain ⟨-, rfl⟩ : n = q.1 ∧ q.2 = words := by simpa using hwords
      have hall : ∀ q ∈ compoundNames, ∀ w ∈ q.2, isIdentifier w = true := by decide
      exact hall q hq
  intro t ht
  obtain ⟨w, hw, rfl⟩ := List.mem_map.mp ht
  exact Token.isPrintable_identifier (hwords w hw)

/-- The name of a type begins like a type. -/
theorem TypeWords.begins {used : List Token} {n : String} {more : Bool}
    (h : TypeWords used n more) (hn : isModifier (.identifier n) = false) :
    Begins StartsType used := by
  cases h with
  | plain => exact .cons (.inr ⟨n, rfl, hn⟩) []
  | longLong => exact .cons (.inr ⟨_, rfl, rfl⟩) _
  | unsignedShort => exact .cons (.inr ⟨_, rfl, rfl⟩) _
  | unsignedLong => exact .cons (.inr ⟨_, rfl, rfl⟩) _
  | unsignedLongLong => exact .cons (.inr ⟨_, rfl, rfl⟩) _
  | unrestricted => exact .cons (.inr ⟨_, rfl, rfl⟩) _

theorem TypeWords.begins_identifier {used : List Token} {n : String} {more : Bool}
    (h : TypeWords used n more) : Begins (fun t => ∃ word, t = .identifier word) used := by
  cases h <;> exact .cons ⟨_, rfl⟩ _

theorem begins_tokens {d : TypeDescriptor} (h : d.WellFormed .printed) :
    Begins StartsType d.tokens := by
  induction h with
  | primitive hn =>
    obtain ⟨more, hwords⟩ := typeWords_typeNameTokens hn.1
    exact hwords.begins hn.2
  | union => exact .cons (.inl rfl) _
  | generic hk =>
    obtain ⟨more, hwords⟩ := typeWords_typeNameTokens hk.1
    exact ((hwords.begins hk.2).append _).append _
  | nullable _ _ ih => exact ih.append _

/-- No type begins like extended attributes. -/
theorem begins_ne_lbracket {d : TypeDescriptor} (h : d.WellFormed .parsed) :
    Begins (· ≠ .symbol .lbracket) d.tokens := by
  have hname : ∀ {n : String}, isTypeName n = true →
      Begins (· ≠ .symbol .lbracket) (typeNameTokens n) := by
    intro n hn
    obtain ⟨more, hwords⟩ := typeWords_typeNameTokens hn
    refine hwords.begins_identifier.mono ?_
    rintro _ ⟨word, rfl⟩
    exact nofun
  induction h with
  | primitive hn => exact hname hn
  | union => exact .cons nofun _
  | generic hk => exact ((hname hk).append _).append _
  | nullable _ _ ih => exact ih.append _

theorem printable_tokens {d : TypeDescriptor} (h : d.WellFormed .parsed) :
    ∀ t ∈ d.tokens, t.IsPrintable := by
  have hparts : ∀ {between : Token} {ds : List TypeDescriptor}, between.IsPrintable →
      (∀ d ∈ ds, ∀ t ∈ d.tokens, t.IsPrintable) →
      ∀ t ∈ separated between (TypeDescriptor.tokensOf ds), t.IsPrintable := by
    intro between ds hb hds
    rw [TypeDescriptor.tokensOf_eq_map]
    exact printable_separated hb (List.forall_mem_map.mpr hds)
  have hsymbol := fun s => List.forall_mem_singleton.mpr (Token.isPrintable_symbol s)
  induction h with
  | primitive hn => exact printable_typeNameTokens hn
  | union _ _ ih =>
    refine List.forall_mem_append.mpr ⟨List.forall_mem_cons.mpr ⟨?_, ?_⟩, hsymbol .rparen⟩
    · exact Token.isPrintable_symbol .lparen
    · exact hparts (Token.isPrintable_keyword .or) ih
  | generic hk _ _ ih =>
    refine List.forall_mem_append.mpr ⟨List.forall_mem_append.mpr ⟨?_, ?_⟩, hsymbol .rangle⟩
    · exact printable_typeNameTokens hk
    · exact List.forall_mem_cons.mpr
        ⟨Token.isPrintable_symbol .langle, hparts (Token.isPrintable_symbol .comma) ih⟩
  | nullable _ _ ih => exact List.forall_mem_append.mpr ⟨ih, hsymbol .question⟩

/-- Reading on behind a type, which may still be marked if it is not nullable. -/
def typeNext (stack : List OpenType) (d : TypeDescriptor) (ts : List Token) :
    Except SyntaxError (TypeDescriptor × List Token) :=
  if d.isNullable then typeEnd stack d ts else typeMark stack d ts

/-- A type is read from its tokens, whatever is open around it. -/
def ReadsType (d : TypeDescriptor) : Prop :=
  ∀ stack rest, EndsName rest.head? →
    typeStart stack (d.tokens ++ rest) = typeNext stack d rest

/-- In front of any token but a question mark the type is complete. -/
theorem ReadsType.typeEnd {d : TypeDescriptor} (h : ReadsType d) (stack : List OpenType)
    (rest : List Token) (hnext : EndsType rest.head?) :
    typeStart stack (d.tokens ++ rest) = typeEnd stack d rest := by
  rw [h stack rest hnext.1, typeNext]
  split
  · rfl
  · exact typeMark_of_ne hnext.2

/-- **The parts of a union or a generic** are read one after the other and gathered in
the open type, which the last token closes. -/
theorem typeStart_separated {stack : List OpenType} {openType : List TypeDescriptor → OpenType}
    {closed : List TypeDescriptor → TypeDescriptor} {between close : Token} {least : Nat}
    (hgo : ∀ acc d rest, typeEnd (openType acc :: stack) d (between :: rest)
      = typeStart (openType (acc ++ [d]) :: stack) rest)
    (hclose : ∀ acc d rest, least ≤ acc.length + 1 →
      typeEnd (openType acc :: stack) d (close :: rest)
        = typeMark stack (closed (acc ++ [d])) rest)
    (hb : EndsType (some between)) (hc : EndsType (some close))
    {ds : List TypeDescriptor} (hds : ∀ d ∈ ds, ReadsType d) (hne : ds ≠ [])
    (acc : List TypeDescriptor) (hleast : least ≤ acc.length + ds.length) (rest : List Token) :
    typeStart (openType acc :: stack)
        (separated between (TypeDescriptor.tokensOf ds) ++ close :: rest)
      = typeMark stack (closed (acc ++ ds)) rest := by
  rw [TypeDescriptor.tokensOf_eq_map]
  induction ds generalizing acc with
  | nil => exact absurd rfl hne
  | cons d ds ih =>
    rw [List.forall_mem_cons] at hds
    cases ds with
    | nil =>
      have hlast := hds.1.typeEnd (openType acc :: stack) (close :: rest) hc
      rw [List.map_singleton, separated, List.flatMap_nil, List.append_nil, hlast]
      exact hclose acc d rest hleast
    | cons e es =>
      -- the separator moves the first part into the open type, and the others are read on it
      have hleast' : least ≤ (acc ++ [d]).length + (e :: es).length := by
        simp only [List.length_append, List.length_cons, List.length_nil] at hleast ⊢
        omega
      have hmore := ih hds.2 (List.cons_ne_nil e es) (acc ++ [d]) hleast'
      rw [List.append_assoc, List.singleton_append, List.map_cons] at hmore
      have hfirst := fun ts => hds.1.typeEnd (openType acc :: stack) (between :: ts) hb
      rw [List.map_cons, List.map_cons, separated_cons_cons, List.append_assoc,
        List.cons_append, hfirst, hgo]
      exact hmore

/-- **A well-formed type is read from its tokens.** -/
theorem readsType {d : TypeDescriptor} (h : d.WellFormed .parsed) : ReadsType d := by
  induction h with
  | primitive hn =>
    intro stack rest hnext
    obtain ⟨more, hwords⟩ := typeWords_typeNameTokens hn
    exact typeStart_of_name (typeName_append hwords fun _ => hnext.2) hnext.1
  | @union members htwo _ ih =>
    intro stack rest _
    have hne : members ≠ [] := by
      rintro rfl
      exact absurd htwo (by decide)
    have hclose : ∀ (acc : List TypeDescriptor) (d : TypeDescriptor) (rest : List Token),
        2 ≤ acc.length + 1 → typeEnd (.union acc :: stack) d (.symbol .rparen :: rest)
          = typeMark stack (.union (acc ++ [d])) rest := by
      intro acc d rest hacc
      refine typeEnd_rparen ?_
      rintro rfl
      exact absurd hacc (by decide)
    rw [TypeDescriptor.tokens, List.cons_append, List.cons_append, List.append_assoc,
      typeStart_lparen]
    have hleast : 2 ≤ ([] : List TypeDescriptor).length + members.length := by simpa using htwo
    exact typeStart_separated (fun acc _ _ => typeEnd_or acc) hclose (by decide) (by decide)
      ih hne [] hleast rest
  | @generic kind args hk hne _ ih =>
    intro stack rest _
    obtain ⟨more, hwords⟩ := typeWords_typeNameTokens hk
    rw [TypeDescriptor.tokens, List.append_assoc, List.append_assoc, List.cons_append,
      typeStart_of_langle (typeName_append hwords fun _ => by simp)]
    exact typeStart_separated (fun acc _ _ => typeEnd_comma kind acc)
      (fun acc _ _ _ => typeEnd_rangle kind acc) (by decide) (by decide)
      ih hne [] (Nat.zero_le _) rest
  | @nullable d _ hn ih =>
    intro stack rest _
    -- a type that is not nullable is left in front of its mark, which is then taken
    have hmark : EndsName (some (.symbol .question)) := by decide
    rw [TypeDescriptor.tokens, List.append_assoc]
    refine (ih stack (.symbol .question :: rest) hmark).trans ?_
    rw [typeNext, hn]
    exact typeMark_question stack d rest

theorem reads_type {d : TypeDescriptor} (h : d.WellFormed .parsed) :
    Reads type EndsType d.tokens d where
  printable := printable_tokens h
  run rest hrest := by
    rw [type, (readsType h).typeEnd [] rest hrest, typeEnd_nil]

/-! ## What follows what -/

theorem begins_ne_symbol {ts : List Token} (h : Begins StartsType ts) {s : Symbol}
    (hs : s ≠ .lparen) : Begins (· ≠ .symbol s) ts := by
  refine h.mono fun t ht => ?_
  rcases ht with rfl | ⟨n, rfl, -⟩
  · exact fun heq => hs (Token.symbol.inj heq).symm
  · exact Token.noConfusion

theorem begins_ne_keyword {ts : List Token} (h : Begins StartsType ts) (k : Keyword) :
    Begins (· ≠ .keyword k) ts := by
  refine h.mono fun t ht => ?_
  rcases ht with rfl | ⟨n, rfl, -⟩ <;> exact Token.noConfusion

theorem ofWord_ne_symbol (n : String) (s : Symbol) : Token.ofWord n ≠ .symbol s := by
  unfold Token.ofWord
  split <;> exact Token.noConfusion

theorem ofWord_ne_identifier {n m : String} (h : n ≠ m) : Token.ofWord n ≠ .identifier m := by
  intro heq
  have hname := Token.name?_ofWord n
  rw [heq] at hname
  exact h (Option.some.inj hname).symm

/-- A name may follow a type, if it does not prolong it. -/
theorem endsType_ofWord {n : String} (h : n ≠ "long") : EndsType (some (.ofWord n)) :=
  ⟨⟨fun heq => ofWord_ne_symbol n _ (Option.some.inj heq),
    fun heq => ofWord_ne_identifier h (Option.some.inj heq)⟩,
    fun heq => ofWord_ne_symbol n _ (Option.some.inj heq)⟩

/-! ## Extended attributes -/

/-- Names behind colons are read up to where no colon and identifier go on with them. -/
theorem qualifiers_joined (more : List String) {rest : List Token}
    (hrest : ∀ n rest', rest ≠ .symbol .colon :: .identifier n :: rest') :
    ∃ text, qualifiers (joined more ++ rest) = (text, rest)
      ∧ ∀ first, first ++ text = Text.join ":" (first :: more) := by
  induction more with
  | nil =>
    refine ⟨"", ?_, fun first => String.append_empty⟩
    rw [joined, List.flatMap_nil, List.nil_append, qualifiers.eq_2]
    exact hrest
  | cons n more ih =>
    obtain ⟨text, hrun, hjoin⟩ := ih
    refine ⟨":" ++ n ++ text, ?_, fun first => ?_⟩
    · rw [joined, List.flatMap_cons, List.append_assoc, List.cons_append, List.cons_append,
        List.nil_append, qualifiers, hrun]
    · rw [Text.join, ← hjoin n, String.append_assoc, String.append_assoc]
      exact List.cons_ne_nil n more

/-- A name and others joined to it by colons make up a value. -/
theorem attributeValue_names {t : Token} {first : String} (ht : t.name? = some first)
    (more : List String) {rest : List Token}
    (hrest : ∀ n rest', rest ≠ .symbol .colon :: .identifier n :: rest') :
    attributeValue (t :: (joined more ++ rest))
      = .ok (.identifier (Text.join ":" (first :: more)), rest) := by
  obtain ⟨text, hrun, hjoin⟩ := qualifiers_joined more hrest
  have hread : ReadsValue (t :: (joined more ++ rest)) _ _ := .names ht
  rw [hrun, hjoin] at hread
  exact attributeValue_eq_ok_iff.mpr hread

theorem ne_joined_of_head? {rest : List Token} (h : rest.head? ≠ some (.symbol .colon))
    (n : String) (rest' : List Token) : rest ≠ .symbol .colon :: .identifier n :: rest' := by
  rintro rfl
  exact h rfl

theorem reads_attributeValue {v : AttributeValue} (h : v.Exact) :
    Reads attributeValue (· ≠ some (.symbol .colon)) v.tokens v := by
  cases h with
  | @string content h =>
    rw [AttributeValue.tokens, unquote_quoted]
    exact ⟨List.forall_mem_singleton.mpr (Token.isPrintable_string h), fun _ _ => rfl⟩
  | @integer n h =>
    rw [AttributeValue.tokens, plainTokens_intText]
    exact ⟨List.forall_mem_singleton.mpr (Token.isPrintable_integer h), fun _ _ => rfl⟩
  | @names first more h hmore =>
    rw [AttributeValue.tokens, plainTokens_join h hmore]
    refine ⟨List.forall_mem_cons.mpr ⟨Token.isPrintable_ofWord h, fun t ht => ?_⟩,
      fun rest hrest => ?_⟩
    · obtain ⟨n, hn, ht⟩ := List.mem_flatMap.mp ht
      rcases List.mem_cons.mp ht with rfl | ht
      · exact Token.isPrintable_symbol .colon
      · rw [List.mem_singleton.mp ht]
        exact Token.isPrintable_identifier (hmore n hn)
    · exact attributeValue_names (Token.name?_ofWord first) more (ne_joined_of_head? hrest)
  | @list names hne h =>
    have hlist := Reads.commaList hne (fun n hn => reads_name (h n hn)) trivial
    refine ⟨?_, fun rest _ => ?_⟩
    · exact List.forall_mem_append.mpr
        ⟨List.forall_mem_cons.mpr ⟨Token.isPrintable_symbol .lparen, hlist.printable⟩,
          List.forall_mem_singleton.mpr (Token.isPrintable_symbol .rparen)⟩
    · rw [AttributeValue.tokens, List.append_assoc, List.cons_append]
      exact attributeValue_eq_ok_iff.mpr (.list (hlist.run _ ⟨trivial, by simp⟩))

theorem reads_skipParens : Reads skipParens (· ≠ some (.symbol .lparen)) [] () :=
  ⟨List.forall_mem_nil _, fun _ h => skipParens_of_ne h⟩

/-- What may follow an extended attribute. -/
def EndsAttribute (n : Option Token) : Prop :=
  n ≠ some (.symbol .equals) ∧ n ≠ some (.symbol .lparen) ∧ n ≠ some (.symbol .colon)

instance : DecidablePred EndsAttribute :=
  fun n => inferInstanceAs (Decidable (n ≠ _ ∧ n ≠ _ ∧ n ≠ _))

theorem reads_extendedAttribute {a : ExtendedAttribute} (h : a.WellFormed .printed) :
    Reads extendedAttribute EndsAttribute a.tokens a := by
  obtain ⟨name, value⟩ := a
  have hparens : ∀ value : Option AttributeValue,
      Reads (skipParens >>= fun _ => pure (⟨name, value⟩ : ExtendedAttribute))
        EndsAttribute [] ⟨name, value⟩ :=
    fun value => reads_skipParens.pass (reads_pure _) fun _ hn => hn.2.1
  refine (reads_name h.name.1).take ?_
  cases value with
  | none => exact (reads_eat_none _).pass (.ite_false (hparens none)) fun _ hn => hn.1
  | some v =>
    refine (reads_eat (Token.isPrintable_symbol .equals)).take (.ite_true ?_)
    have hvalue : Reads (attributeValue >>= fun v => pure (some v)) (· ≠ some (.symbol .colon))
        v.tokens (some v) :=
      (reads_attributeValue (h.value v rfl)).bind_nil (reads_pure (some v)) fun _ hn => hn
    exact hvalue.bind_nil (hparens (some v)) fun _ hn => hn.2.2

theorem reads_attributes {attributes : List ExtendedAttribute}
    (h : ∀ a ∈ attributes, a.WellFormed .printed) :
    Reads Grammar.attributes (· ≠ some (.symbol .lbracket)) (attributesTokens attributes)
      attributes := by
  cases attributes with
  | nil => exact (reads_eat_none _).pass (.ite_false (reads_pure [])) fun _ hn => hn
  | cons a as =>
    have hcomma : EndsAttribute (some (.symbol .comma)) := by decide
    have hlist := Reads.commaList (List.cons_ne_nil a as)
      (fun x hx => reads_extendedAttribute (h x hx)) hcomma
    refine (reads_eat (Token.isPrintable_symbol .lbracket)).take (.ite_true ?_)
    refine hlist.bind ((reads_symbol .rbracket).take (reads_pure (a :: as))) fun _ _ => ?_
    exact ⟨(by decide : EndsAttribute (some (.symbol .rbracket))), by simp⟩

/-! ## Members -/

theorem reads_argument {a : Argument} (h : a.WellFormed .printed) :
    Reads argument (· ≠ some (.symbol .equals)) a.tokens a := by
  obtain ⟨name, type, optional, variadic, attributes⟩ := a
  have hbegin : Begins StartsType
      (type.tokens ++ (flag (.symbol .ellipsis) variadic ++ [.ofWord name])) :=
    (begins_tokens h.type).append _
  have hopen : Begins (· ≠ .symbol .lbracket) (flag (.keyword .optional) optional ++
      (type.tokens ++ (flag (.symbol .ellipsis) variadic ++ [.ofWord name]))) :=
    (begins_ne_symbol hbegin (by decide)).flag_append (by decide) optional
  refine (reads_attributes h.attributes).bind ?_ fun n _ => hopen.next_ne n
  refine (reads_flag (Token.isPrintable_keyword _) optional).bind ?_
    fun n _ => (begins_ne_keyword hbegin _).next_ne n
  have hend : ∀ n, EndsType
      ((flag (.symbol .ellipsis) variadic ++ [Token.ofWord name]).head?.or n) := by
    intro n
    cases variadic with
    | true => exact (by decide : EndsType (some (.symbol .ellipsis)))
    | false => exact endsType_ofWord h.name.2.1
  refine (reads_type h.type.parsed).bind ?_ fun n _ => hend n
  refine (reads_flag (Token.isPrintable_symbol _) variadic).bind ?_
    fun _ _ heq => ofWord_ne_symbol name _ (Option.some.inj heq)
  refine (reads_name h.name.1).take ?_
  -- only behind an optional argument is a default value looked for
  cases optional with
  | true => exact (reads_eat_none _).pass (.ite_false (reads_pure _)) fun _ hn => hn
  | false => exact reads_pure _

/-- No argument begins with the parenthesis that closes the list. -/
theorem begins_argument {a : Argument} (h : a.WellFormed .printed) :
    Begins (· ≠ .symbol .rparen) a.tokens := by
  have hbegin := begins_ne_symbol ((begins_tokens h.type).append
    (flag (.symbol .ellipsis) a.variadic ++ [.ofWord a.name])) (by decide : Symbol.rparen ≠ .lparen)
  exact (hbegin.flag_append (by decide) a.optional).attributes_append (by decide) a.attributes

theorem reads_arguments {arguments : List Argument} (h : ∀ a ∈ arguments, a.WellFormed .printed) :
    Reads Grammar.arguments (· = some (.symbol .rparen))
      (separated (.symbol .comma) (arguments.map (·.tokens))) arguments := by
  cases arguments with
  | nil =>
    refine (reads_check (.symbol .rparen) true).pass (.ite_true (reads_pure [])) ?_
    rintro _ rfl
    rfl
  | cons a as =>
    have hlist := Reads.commaList (List.cons_ne_nil a as) (fun x hx => reads_argument (h x hx))
      (by simp)
    have hfirst := (begins_argument (h a List.mem_cons_self)).append
      ((as.map (·.tokens)).flatMap (.symbol .comma :: ·))
    refine (reads_check (.symbol .rparen) false).pass (.ite_false (hlist.mono ?_)) fun n _ => ?_
    · rintro _ rfl
      exact ⟨by simp, by simp⟩
    · exact (beq_eq_false_iff_ne.mpr (hfirst.next_ne n)).symm

theorem reads_modifiers :
    Reads modifiers (fun n => ∀ t ∈ n, isModifier t = false) [] () where
  printable := List.forall_mem_nil _
  run rest h := by
    cases rest with
    | nil => rfl
    | cons t ts =>
      have ht : ¬ isModifier t = true := by rw [h t rfl]; exact Bool.false_ne_true
      rw [List.nil_append, modifiers, List.dropWhile_cons_of_neg ht]

/-- A constant that has a place and no content. -/
theorem reads_constant :
    Reads constant (fun _ => True) [.identifier "any", .identifier "_", .symbol .equals,
      .integer 0, .symbol .semicolon] .other := by
  have hany : TypeDescriptor.WellFormed .printed (.primitive "any") := .primitive (by decide)
  have hvalue : Reads defaultValue (fun _ => True) [.integer 0] () :=
    ⟨List.forall_mem_singleton.mpr (Token.isPrintable_integer (by decide)), fun _ _ => rfl⟩
  refine (reads_type hany.parsed).bind ?_ fun _ _ => (by decide : EndsType (some (.identifier "_")))
  refine (reads_name (by decide : isWord "_" = true)).take ((reads_symbol .equals).take ?_)
  exact hvalue.take ((reads_symbol .semicolon).take (reads_pure _))

theorem reads_property {p : Property} {d : TypeDescriptor} (hd : p.type = some d)
    (hwf : d.WellFormed .printed) (hname : Lexicon.printed.name p.name) :
    Reads (property p.attributes) (fun _ => True)
      (flag (.keyword .readonly) p.readonly ++ .keyword .attr
        :: (d.tokens ++ [.ofWord p.name, .symbol .semicolon])) (.property p) := by
  obtain ⟨name, type, readonly, attributes⟩ := p
  obtain rfl : type = some d := hd
  refine (reads_flag (Token.isPrintable_keyword _) readonly).bind ?_ fun _ _ => by simp
  refine (reads_keyword .attr).take ?_
  refine (reads_type hwf.parsed).bind ?_ fun _ _ => endsType_ofWord hname.2.1
  exact (reads_name hname.1).take ((reads_symbol .semicolon).take (reads_pure _))

theorem reads_operation {op : Operation} {d : TypeDescriptor} (hd : op.returns = some d)
    (hwf : d.WellFormed .printed) (hname : op.name = "" ∨ Lexicon.printed.name op.name)
    (hargs : ∀ a ∈ op.arguments, a.WellFormed .printed) :
    Reads (operation op.attributes) (fun _ => True)
      (d.tokens ++ (flag (.ofWord op.name) (op.name != "") ++ .symbol .lparen
        :: (separated (.symbol .comma) (op.arguments.map (·.tokens))
          ++ [.symbol .rparen, .symbol .semicolon]))) (.operation op) := by
  obtain ⟨name, returns, arguments, attributes⟩ := op
  obtain rfl : returns = some d := hd
  have hrest : Reads (Parser.symbol .lparen >>= fun _ =>
      Grammar.arguments >>= fun arguments => Parser.symbol .rparen >>= fun _ =>
      Parser.symbol .semicolon >>= fun _ =>
      pure (Member.operation ⟨name, some d, arguments, attributes⟩)) (fun _ => True)
      (.symbol .lparen :: (separated (.symbol .comma) (arguments.map (·.tokens))
        ++ [.symbol .rparen, .symbol .semicolon]))
      (.operation ⟨name, some d, arguments, attributes⟩) := by
    refine (reads_symbol .lparen).take ((reads_arguments hargs).bind ?_ fun _ _ => rfl)
    exact (reads_symbol .rparen).take ((reads_symbol .semicolon).take (reads_pure _))
  -- an operation has no name if the parenthesis stands right behind the type
  by_cases hempty : name = ""
  · subst hempty
    refine (reads_type hwf.parsed).bind ?_ fun _ _ => (by decide : EndsType (some (.symbol .lparen)))
    exact (reads_check (.symbol .lparen) true).pass (.ite_true hrest) fun _ _ => rfl
  · have hn := hname.resolve_left hempty
    have hflag : flag (.ofWord name) (name != "") = [.ofWord name] := by
      rw [bne_iff_ne.mpr hempty]
      rfl
    rw [hflag]
    refine (reads_type hwf.parsed).bind ?_ fun _ _ => endsType_ofWord hn.2.1
    refine (reads_check (.symbol .lparen) false).pass
      (.ite_false ((reads_name hn.1).take hrest)) fun _ _ => ?_
    exact (beq_eq_false_iff_ne.mpr fun heq => ofWord_ne_symbol name _ (Option.some.inj heq)).symm

/-- No member begins with the brace that closes the interface. -/
theorem begins_member {m : Member} (h : m.WellFormed .printed) :
    Begins (· ≠ .symbol .rbrace) m.tokens := by
  cases m with
  | other => exact .cons (by decide) _
  | property p =>
    refine Begins.attributes_append (by decide) _ (.flag_append (by decide) _ ?_)
    exact .cons (by decide) _
  | operation op =>
    obtain ⟨d, hd, hwf⟩ := h.returns
    refine Begins.attributes_append (by decide) _ ?_
    rw [hd]
    exact begins_ne_symbol ((begins_tokens hwf).append _) (by decide)

/-- Behind its extended attributes a member that is no constant is told by the token it
begins with. -/
theorem reads_member_of {attributes : List ExtendedAttribute} {ts : List Token} {m : Member}
    (isReadonly isAttr : Bool) (ha : ∀ a ∈ attributes, a.WellFormed .printed)
    (hbegin : Begins (fun t => t ≠ .symbol .lbracket ∧ t ≠ .keyword .const
      ∧ isModifier t = false ∧ isReadonly = (t == .keyword .readonly)
      ∧ isAttr = (t == .keyword .attr)) ts)
    (hread : Reads (if (isReadonly || isAttr) = true then property attributes
      else operation attributes) (fun _ => True) ts m) :
    Reads member (fun _ => True) (attributesTokens attributes ++ ts) m := by
  obtain ⟨t, ts', rfl, hbracket, hconst, hmodifier, hreadonly, hattr⟩ := hbegin
  refine (reads_attributes ha).bind ?_ fun _ _ heq => hbracket (Option.some.inj heq)
  refine (reads_eat_none _).pass (.ite_false ?_) fun _ _ heq => hconst (Option.some.inj heq)
  refine reads_modifiers.pass ?_ fun _ _ u hu => ?_
  · refine (reads_check _ isReadonly).pass ?_ fun _ _ => hreadonly
    exact (reads_check _ isAttr).pass hread fun _ _ => hattr
  · obtain rfl : t = u := Option.some.inj hu
    exact hmodifier

theorem reads_member {m : Member} (h : m.WellFormed .printed) :
    Reads member (fun _ => True) m.tokens m := by
  cases m with
  | other =>
    have hnone : ∀ a ∈ ([] : List ExtendedAttribute), a.WellFormed .printed :=
      List.forall_mem_nil _
    refine (reads_attributes hnone).pass ?_ fun _ _ => by simp [Member.tokens]
    exact (reads_eat (Token.isPrintable_keyword .const)).take (.ite_true reads_constant)
  | property p =>
    obtain ⟨d, hd, hwf⟩ := h.type
    have hread := reads_property hd hwf h.name
    rw [Member.tokens, Property.tokens, hd]
    cases hr : p.readonly with
    | true =>
      rw [hr] at hread
      exact reads_member_of true false h.attributes
        (.cons ⟨by decide, by decide, rfl, rfl, rfl⟩ _) (.ite_true hread)
    | false =>
      rw [hr] at hread
      exact reads_member_of false true h.attributes
        (.cons ⟨by decide, by decide, rfl, rfl, rfl⟩ _) (.ite_true hread)
  | operation op =>
    obtain ⟨d, hd, hwf⟩ := h.returns
    have hread := reads_operation hd hwf h.name h.arguments
    rw [Member.tokens, Operation.tokens, hd]
    refine reads_member_of false false h.attributes ?_ (.ite_false hread)
    refine ((begins_tokens hwf).append _).mono fun t ht => ?_
    rcases ht with rfl | ⟨n, rfl, hn⟩
    · exact ⟨by decide, by decide, rfl, rfl, rfl⟩
    · exact ⟨Token.noConfusion, Token.noConfusion, hn, rfl, rfl⟩

/-- No field begins with the brace that closes the dictionary. -/
theorem begins_field {f : Field} (h : f.WellFormed .printed) :
    Begins (· ≠ .symbol .rbrace) f.tokens := by
  have hbegin := begins_ne_symbol ((begins_tokens h.type).append
    [.ofWord f.name, .symbol .semicolon]) (by decide : Symbol.rbrace ≠ .lparen)
  exact (hbegin.flag_append (by decide) f.required).attributes_append (by decide) f.attributes

theorem reads_field {f : Field} (h : f.WellFormed .printed) :
    Reads field (fun _ => True) f.tokens f := by
  obtain ⟨name, type, required, attributes⟩ := f
  have hbegin : Begins StartsType (type.tokens ++ [.ofWord name, .symbol .semicolon]) :=
    (begins_tokens h.type).append _
  have hopen : Begins (· ≠ .symbol .lbracket) (flag (.keyword .required) required ++
      (type.tokens ++ [.ofWord name, .symbol .semicolon])) :=
    (begins_ne_symbol hbegin (by decide)).flag_append (by decide) required
  refine (reads_attributes h.attributes).bind ?_ fun n _ => hopen.next_ne n
  refine (reads_flag (Token.isPrintable_keyword _) required).bind ?_
    fun n _ => (begins_ne_keyword hbegin _).next_ne n
  refine (reads_type h.type.parsed).bind ?_ fun _ _ => endsType_ofWord h.name.2.1
  refine (reads_name h.name.1).take ((reads_eat_none _).pass (.ite_false ?_) fun _ _ => by simp)
  exact (reads_symbol .semicolon).take (reads_pure _)

/-! ## Definitions -/

theorem reads_inherited {inherits : Option String}
    (h : ∀ n ∈ inherits, Lexicon.printed.name n) :
    Reads inherited (· ≠ some (.symbol .colon)) (inheritedTokens inherits) inherits := by
  cases inherits with
  | none => exact (reads_eat_none _).pass (.ite_false (reads_pure none)) fun _ hn => hn
  | some n =>
    refine (reads_eat (Token.isPrintable_symbol .colon)).take (.ite_true ?_)
    exact (reads_name (h n rfl).1).take (reads_pure (some n))

theorem reads_braced {α : Type} {item : Parser α} {tok : α → List Token} {as : List α}
    (h : ∀ a ∈ as, Reads item (fun _ => True) (tok a) a)
    (hbegin : ∀ a ∈ as, Begins (· ≠ .symbol .rbrace) (tok a)) :
    Reads (braced item) (fun _ => True) (bracedTokens (as.map tok)) as := by
  have hitems : Reads (Parser.untilStop (· == some (.symbol .rbrace)) item)
      (fun n => (n == some (.symbol .rbrace)) = true) (as.map tok).flatten as :=
    Reads.untilStop h fun a ha => (hbegin a ha).mono fun t ht =>
      beq_eq_false_iff_ne.mpr fun heq => ht (Option.some.inj heq)
  refine (reads_symbol .lbrace).take (hitems.bind ?_ fun _ _ => rfl)
  exact (reads_symbol .rbrace).take ((reads_symbol .semicolon).take (reads_pure as))

theorem reads_someEnumValues {values : List String} (hne : values ≠ [])
    (h : ∀ v ∈ values, '"' ∉ v.toList) :
    Reads someEnumValues (· ≠ some (.symbol .comma))
      (separated (.symbol .comma) (values.map fun v => [.string v])) values := by
  refine ⟨printable_separated (Token.isPrintable_symbol _) ?_, fun rest hrest => ?_⟩
  · intro part hpart
    obtain ⟨v, hv, rfl⟩ := List.mem_map.mp hpart
    exact List.forall_mem_singleton.mpr (Token.isPrintable_string (h v hv))
  · refine someEnumValues_eq_ok_iff.mpr ⟨?_, hne⟩
    clear h
    induction values with
    | nil => exact absurd rfl hne
    | cons v values ih =>
      cases values with
      | nil =>
        rw [List.map_singleton, separated, List.flatMap_nil, List.append_nil,
          List.singleton_append, enumValues.eq_2]
        rintro rest' rfl
        exact hrest rfl
      | cons w ws =>
        have hmore := ih (List.cons_ne_nil w ws)
        rw [List.map_cons] at hmore
        rw [List.map_cons, List.map_cons, separated_cons_cons, List.append_assoc,
          List.singleton_append, List.cons_append, enumValues, hmore]

theorem reads_interface {i : Interface} (h : i.WellFormed .printed) :
    Reads (interface i.attributes) (fun _ => True) (.keyword .interface :: .ofWord i.name
      :: (inheritedTokens i.inherits ++ bracedTokens (i.members.map (·.tokens))))
      (.interface i) := by
  have hmembers := reads_braced (fun m hm => reads_member (h.members m hm))
    fun m hm => begins_member (h.members m hm)
  -- the name must not be `mixin`, which would be taken as a part of the heading
  refine (reads_keyword .interface).take ((reads_eat_none _).pass ?_ fun _ _ heq => ?_)
  · refine (reads_name h.name.1).take ?_
    refine (reads_inherited h.inherits).bind ?_ fun _ _ => by simp [bracedTokens]
    exact hmembers.bind_nil (reads_pure _) fun _ _ => trivial
  · exact ofWord_ne_identifier h.name.2.2 (Option.some.inj heq)

theorem reads_dictionary {d : Dictionary} (h : d.WellFormed .printed) :
    Reads (dictionary d.attributes) (fun _ => True) (.keyword .dictionary :: .ofWord d.name
      :: (inheritedTokens d.inherits ++ bracedTokens (d.fields.map (·.tokens))))
      (.dictionary d) := by
  have hfields := reads_braced (fun f hf => reads_field (h.fields f hf))
    fun f hf => begins_field (h.fields f hf)
  refine (reads_keyword .dictionary).take ((reads_name h.name.1).take ?_)
  refine (reads_inherited h.inherits).bind ?_ fun _ _ => by simp [bracedTokens]
  exact hfields.bind_nil (reads_pure _) fun _ _ => trivial

theorem reads_enumeration {e : Enumeration} (h : e.WellFormed .printed) :
    Reads (enumeration e.attributes) (fun _ => True) (.keyword .enum :: .ofWord e.name
      :: .symbol .lbrace :: (separated (.symbol .comma) (e.values.map fun v => [.string v])
        ++ [.symbol .rbrace, .symbol .semicolon])) (.enumeration e) := by
  refine (reads_keyword .enum).take ((reads_name h.name.1).take ((reads_symbol .lbrace).take ?_))
  refine (reads_someEnumValues h.nonempty h.values).bind ?_ fun _ _ => by simp
  exact (reads_symbol .rbrace).take ((reads_symbol .semicolon).take (reads_pure _))

/-- A name may be given to any type that can be parsed, also to one that would be read otherwise in
front of a member. -/
theorem reads_typedef {t : Typedef} (hname : Lexicon.printed.name t.name)
    (htype : t.type.WellFormed .parsed) :
    Reads (typedef t.attributes) (fun _ => True) (.keyword .typedef
      :: (t.type.tokens ++ [.ofWord t.name, .symbol .semicolon])) (.typedef t) := by
  have hbegin := (begins_ne_lbracket htype).append [.ofWord t.name, .symbol .semicolon]
  -- in front of its type a typedef may have attributes once more: none are printed there
  have hnone : Reads Grammar.attributes (· ≠ some (.symbol .lbracket)) [] [] :=
    reads_attributes (List.forall_mem_nil _)
  refine (reads_keyword .typedef).take (hnone.pass ?_ fun n _ => hbegin.next_ne n)
  refine (reads_type htype).bind ?_ fun _ _ => endsType_ofWord hname.2.1
  exact (reads_name hname.1).take ((reads_symbol .semicolon).take (reads_pure _))

theorem reads_definition_typedef {t : Typedef} (hname : Lexicon.printed.name t.name)
    (htype : t.type.WellFormed .parsed) (hattributes : ∀ a ∈ t.attributes, a.WellFormed .printed) :
    Reads definition (fun _ => True) (Definition.typedef t).tokens (.typedef t) := by
  refine (reads_attributes hattributes).bind ?_ fun _ _ => by simp
  refine (reads_eat_none _).pass ?_ fun _ _ => by simp
  refine (reads_check _ false).pass (.ite_false ?_) fun _ _ => rfl
  refine (reads_check _ false).pass (.ite_false ?_) fun _ _ => rfl
  refine (reads_check _ false).pass (.ite_false ?_) fun _ _ => rfl
  exact (reads_check _ true).pass (.ite_true (reads_typedef hname htype)) fun _ _ => rfl

/-- **A well-formed definition is read from its tokens**, whatever follows. Behind its
extended attributes it is told by its first word. -/
theorem reads_definition {d : Definition} (h : d.WellFormed .printed) :
    Reads definition (fun _ => True) d.tokens d := by
  cases d with
  | interface i =>
    refine (reads_attributes h.attributes).bind ?_ fun _ _ => by simp
    refine (reads_eat_none _).pass ?_ fun _ _ => by simp
    exact (reads_check _ true).pass (.ite_true (reads_interface h)) fun _ _ => rfl
  | dictionary d =>
    refine (reads_attributes h.attributes).bind ?_ fun _ _ => by simp
    refine (reads_eat_none _).pass ?_ fun _ _ => by simp
    refine (reads_check _ false).pass (.ite_false ?_) fun _ _ => rfl
    exact (reads_check _ true).pass (.ite_true (reads_dictionary h)) fun _ _ => rfl
  | enumeration e =>
    refine (reads_attributes h.attributes).bind ?_ fun _ _ => by simp
    refine (reads_eat_none _).pass ?_ fun _ _ => by simp
    refine (reads_check _ false).pass (.ite_false ?_) fun _ _ => rfl
    refine (reads_check _ false).pass (.ite_false ?_) fun _ _ => rfl
    exact (reads_check _ true).pass (.ite_true (reads_enumeration h)) fun _ _ => rfl
  | typedef t =>
    have ht : t.WellFormed .printed := h
    exact reads_definition_typedef ht.name ht.type.parsed ht.attributes
  | other => exact absurd h id

/-- Printed definitions stand in a row. -/
theorem document_flatMap_tokens {ds : List Definition} (h : ∀ d ∈ ds, d.WellFormed .printed) :
    document (ds.flatMap (·.tokens)) = .ok ds := by
  induction ds with
  | nil => exact document_nil
  | cons d ds ih =>
    rw [List.forall_mem_cons] at h
    have hfirst := (reads_definition h.1).run (ds.flatMap (·.tokens)) trivial
    rw [List.flatMap_cons, document_of_definition hfirst, ih h.2]
    rfl

end Grammar

/-- **What is printed is read back**: parsing the text of well-formed definitions gives
the definitions. -/
theorem parse_print {ds : List Definition} (h : ∀ d ∈ ds, d.WellFormed .printed) :
    parse (print ds) = .ok ds :=
  parse_eq_ok_iff.mpr ⟨ds.flatMap (·.tokens),
    tokens?_print fun d hd => (Grammar.reads_definition (h d hd)).printable,
    Grammar.document_flatMap_tokens h⟩

/-- A keyword as a name, an operation without a name, a nullable union, a variadic
argument behind the type `long`, and a value with a colon. -/
theorem parse_print_interface :
    ∃ d, print [d] = "[ k = p : q ] interface or : B \x7b "
        ++ "( unsigned long long or A < C > ? ) ? ( optional long ... x ) ; "
        ++ "const any _ = 0 ; \x7d ;"
      ∧ d.WellFormed .printed ∧ parse (print [d]) = .ok [d] := by
  let argument : Argument := ⟨"x", .primitive "long", true, true, []⟩
  let generic : TypeDescriptor := .generic "A" [.primitive "C"]
  let union : TypeDescriptor := .union [.primitive "unsigned long long", .nullable generic]
  let operation : Operation := ⟨"", some (.nullable union), [argument], []⟩
  let d : Definition := .interface ⟨"or", some "B", [.operation operation, .other],
    [⟨"k", some (.identifier "p:q")⟩]⟩
  have hprimitive : ∀ n ∈ ["C", "long", "unsigned long long"],
      TypeDescriptor.WellFormed .printed (.primitive n) :=
    fun n hn => .primitive ((by decide : ∀ n ∈ ["C", "long", "unsigned long long"],
      Lexicon.printed.typeName n) n hn)
  have hargument : argument.WellFormed .printed :=
    ⟨by decide, hprimitive _ (by decide), List.forall_mem_nil _⟩
  have hgeneric : generic.WellFormed .printed :=
    .generic (by decide) (by decide) (List.forall_mem_singleton.mpr (hprimitive _ (by decide)))
  have hunion : union.WellFormed .printed :=
    .union (by decide) (List.forall_mem_cons.mpr ⟨hprimitive _ (by decide),
      List.forall_mem_singleton.mpr (.nullable hgeneric rfl)⟩)
  have hoperation : operation.WellFormed .printed :=
    ⟨.inl rfl, ⟨_, rfl, .nullable hunion rfl⟩, List.forall_mem_singleton.mpr hargument,
      List.forall_mem_nil _⟩
  have hvalue : AttributeValue.Exact (.identifier (Text.join ":" ["p", "q"])) :=
    .names (by decide) (by decide)
  have hd : d.WellFormed .printed := by
    refine ⟨by decide, ?_, ?_, ?_⟩
    · rintro _ ⟨⟩
      decide
    · exact List.forall_mem_cons.mpr ⟨hoperation, List.forall_mem_singleton.mpr trivial⟩
    · refine List.forall_mem_singleton.mpr ⟨by decide, ?_⟩
      rintro _ ⟨⟩
      exact hvalue
  exact ⟨d, by decide +kernel, hd, parse_print (List.forall_mem_singleton.mpr hd)⟩

end IntentContract
