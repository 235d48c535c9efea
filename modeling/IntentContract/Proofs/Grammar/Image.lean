import IntentContract.Proofs.Definition.WellFormed
import IntentContract.Proofs.Grammar.Document

/-!
# What the parser can come up with

Every tree that comes out of the parser is well-formed (`wellFormed_of_parse`), and
much of the library relies on that without another look: that a string value has
both its quotes, that a union has alternatives, that every operation has a type.

Some of this is due to the scanner and some to the grammar. A token is read off a
text that spells it, so what serves as a name is a word and a string has no quote
inside. The grammar keeps these tokens apart and puts them together into trees of the
right shape. `Yields` says of a reader that its values have some property, as long as
the tokens are spelled by a text. It goes through the grammar by one rule for each way
readers are put together. Types are read with a stack, and for them the property is an
invariant of the stack.
-/

namespace IntentContract

/-! ## Tokens of a text -/

/-- **What a token of a text is like**: a string has no quote inside, a whole number
is in the range of integers, and an identifier is a word that is no keyword. -/
def Token.IsLexical : Token → Prop
  | .keyword _ => True
  | .symbol _ => True
  | .string content => '"' ∉ content.toList
  | .integer n => Scan.inIntegerRange n = true
  | .float _ => True
  | .identifier n => isIdentifier n = true

/-- What a text spells is a token of this kind. -/
theorem Scan.Spells.isLexical {lex : List Char} {t : Token} (h : Spells lex t) :
    t.IsLexical := by
  cases h with
  | string h =>
    rw [Token.IsLexical, String.toList_ofList]
    exact h
  | ellipsis => trivial
  | symbol => trivial
  | integer _ _ hr => exact hr
  | float => trivial
  | @word c cs hc hcs =>
    unfold Token.ofWord
    split
    · trivial
    · next hnone =>
      have hword : isWord (String.ofList (c :: cs)) = true :=
        isWord_iff.mpr ⟨c, cs, String.toList_ofList, hc, hcs⟩
      rw [Token.IsLexical, isIdentifier, hword, hnone]
      rfl

/-- What serves as a name is a word. -/
theorem Token.IsLexical.isWord {t : Token} {n : String} (h : t.IsLexical)
    (hn : t.name? = some n) : isWord n = true := by
  cases t with
  | identifier m =>
    obtain rfl := Option.some.inj hn
    exact (Bool.and_eq_true_iff.mp h).1
  | keyword k =>
    obtain rfl := Option.some.inj hn
    exact isWord_keyword k
  | symbol s => cases hn
  | string content => cases hn
  | integer n => cases hn
  | float x => cases hn

/-! ## Readers with values of a kind -/

namespace Parser

variable {α β : Type} {P : α → Prop} {Q : β → Prop} {p : Parser α}

/-- **The values of a reader have a property**, if the tokens are those of a text;
and then the tokens it leaves are so too. -/
def Yields (P : α → Prop) (p : Parser α) : Prop :=
  ∀ ⦃ts a rest⦄, (∀ t ∈ ts, t.IsLexical) → p ts = .ok (a, rest) →
    P a ∧ ∀ t ∈ rest, t.IsLexical

/-- A local reader leaves an end of the tokens it was given, so only its values need
a look. -/
theorem Local.yields {look least : Nat} (hp : Local look least p)
    (h : ∀ ⦃ts a rest⦄, (∀ t ∈ ts, t.IsLexical) → p ts = .ok (a, rest) → P a) :
    Yields P p := by
  intro ts a rest hts hrun
  refine ⟨h hts hrun, fun t ht => hts t ?_⟩
  obtain ⟨used, hused, -⟩ := hp ts hrun
  rw [hused]
  exact List.mem_append_right used ht

/-- Nothing is asked of a value that is not used. -/
theorem Local.yields_any {look least : Nat} (hp : Local look least p) :
    Yields (fun _ => True) p :=
  hp.yields fun _ _ _ _ _ => trivial

theorem Yields.mono {P' : α → Prop} (hp : Yields P p) (h : ∀ a, P a → P' a) : Yields P' p :=
  fun _ _ _ hts hrun => ⟨h _ (hp hts hrun).1, (hp hts hrun).2⟩

/-- One reader after another: the second may rely on the value of the first. -/
theorem Yields.bind {f : α → Parser β} (hp : Yields P p) (hf : ∀ a, P a → Yields Q (f a)) :
    Yields Q (p >>= f) := by
  intro ts b rest hts hrun
  obtain ⟨a, mid, ha, hb⟩ := bind_eq_ok_iff.mp hrun
  obtain ⟨hPa, hmid⟩ := hp hts ha
  exact hf a hPa hmid hb

theorem yields_pure {a : α} (h : P a) : Yields P (pure a) := by
  intro ts b rest hts hrun
  obtain ⟨rfl, rfl⟩ := pure_eq_ok_iff.mp hrun
  exact ⟨h, hts⟩

theorem Yields.ite {c : Prop} [Decidable c] {q : Parser α} (hp : Yields P p)
    (hq : Yields P q) : Yields P (if c then p else q) := by
  split
  · exact hp
  · exact hq

theorem yields_misfit (e : Expectation) : Yields P (misfit e) :=
  fun _ _ _ _ hrun => by cases hrun

/-- A name that is read is a word. -/
theorem yields_name : Yields (fun n => isWord n = true) name := by
  refine closed_name.yields fun ts n rest hts hrun => ?_
  obtain ⟨t, rfl, hn⟩ := name_eq_ok_iff.mp hrun
  exact (hts t List.mem_cons_self).isWord hn

/-- A list with commas has at least one item. -/
theorem Yields.commaList (hp : Yields P p) :
    Yields (fun as => as ≠ [] ∧ ∀ a ∈ as, P a) (commaList p) := by
  intro ts as rest hts hrun
  change commaItems p ts = .ok (as, rest) at hrun
  fun_induction commaItems p ts generalizing as rest with
  | case1 => cases hrun
  | case2 => cases hrun
  | case3 ts a mid ha hlt as' rest' has ih =>
    simp only [Except.ok.injEq, Prod.mk.injEq] at hrun
    obtain ⟨rfl, rfl⟩ := hrun
    obtain ⟨hPa, hmid⟩ := hp hts ha
    obtain ⟨⟨-, hPas⟩, hrest⟩ := ih (fun t ht => hmid t (List.mem_cons_of_mem _ ht)) has
    exact ⟨⟨List.cons_ne_nil _ _, List.forall_mem_cons.mpr ⟨hPa, hPas⟩⟩, hrest⟩
  | case4 ts a mid ha =>
    simp only [Except.ok.injEq, Prod.mk.injEq] at hrun
    obtain ⟨rfl, rfl⟩ := hrun
    obtain ⟨hPa, hmid⟩ := hp hts ha
    exact ⟨⟨List.cons_ne_nil _ _, by simpa using hPa⟩, hmid⟩
  | case5 ts a mid hno ha =>
    simp only [Except.ok.injEq, Prod.mk.injEq] at hrun
    obtain ⟨rfl, rfl⟩ := hrun
    obtain ⟨hPa, hmid⟩ := hp hts ha
    exact ⟨⟨List.cons_ne_nil _ _, by simpa using hPa⟩, hmid⟩

theorem Yields.untilStop (stop : Option Token → Bool) (hp : Yields P p) :
    Yields (fun as => ∀ a ∈ as, P a) (untilStop stop p) := by
  intro ts as rest hts hrun
  change itemsUntil stop p ts = .ok (as, rest) at hrun
  fun_induction itemsUntil stop p ts generalizing as rest with
  | case1 =>
    simp only [Except.ok.injEq, Prod.mk.injEq] at hrun
    obtain ⟨rfl, rfl⟩ := hrun
    exact ⟨List.forall_mem_nil _, hts⟩
  | case2 => cases hrun
  | case3 => cases hrun
  | case4 ts hs a mid ha hlt as' rest' has ih =>
    simp only [Except.ok.injEq, Prod.mk.injEq] at hrun
    obtain ⟨rfl, rfl⟩ := hrun
    obtain ⟨hPa, hmid⟩ := hp hts ha
    obtain ⟨hPas, hrest⟩ := ih hmid has
    exact ⟨List.forall_mem_cons.mpr ⟨hPa, hPas⟩, hrest⟩
  | case5 ts hs a mid ha =>
    simp only [Except.ok.injEq, Prod.mk.injEq] at hrun
    obtain ⟨rfl, rfl⟩ := hrun
    obtain ⟨hPa, hmid⟩ := hp hts ha
    exact ⟨by simpa using hPa, hmid⟩

end Parser

namespace Grammar

open IntentContract.Parser

/-! ## Types -/

/-- The name of a type, made of tokens of a text, is one. -/
theorem TypeWords.isTypeName {used : List Token} {n : String} {more : Bool}
    (h : TypeWords used n more) (hused : ∀ t ∈ used, t.IsLexical) : isTypeName n = true := by
  cases h with
  | plain hu hr =>
    have hn : isIdentifier n = true := hused (.identifier n) List.mem_cons_self
    simp [IntentContract.isTypeName, hn, hu, hr]
  | longLong => decide
  | unsignedShort => decide
  | unsignedLong => decide
  | unsignedLongLong => decide
  | unrestricted _ hw => rcases hw with rfl | rfl <;> decide

/-- The name of a type that is read is one, and leaves tokens of the text. -/
theorem isTypeName_of_typeName {ts rest : List Token} {n : String}
    (hts : ∀ t ∈ ts, t.IsLexical) (h : typeName ts = .ok (n, rest)) :
    isTypeName n = true ∧ ∀ t ∈ rest, t.IsLexical := by
  obtain ⟨used, more, hwords, rfl, -⟩ := typeWords_of_typeName h
  rw [List.forall_mem_append] at hts
  exact ⟨hwords.isTypeName hts.1, hts.2⟩

/-- An open type made of well-formed parts. -/
def OpenType.WellFormed : OpenType → Prop
  | .union members => ∀ m ∈ members, m.WellFormed .parsed
  | .generic kind args => isTypeName kind = true ∧ ∀ a ∈ args, a.WellFormed .parsed

/-- A list of well-formed types with one more behind it. -/
theorem wellFormed_append_singleton {L : Lexicon} {ds : List TypeDescriptor} {d : TypeDescriptor}
    (hds : ∀ m ∈ ds, m.WellFormed L) (hd : d.WellFormed L) :
    ∀ m ∈ ds ++ [d], m.WellFormed L :=
  List.forall_mem_append.mpr ⟨hds, List.forall_mem_singleton.mpr hd⟩

-- The invariant is the same at all three points of reading: what is open is made of
-- well-formed parts. A type that may still be marked is not nullable yet.
mutual

theorem wellFormed_of_typeStart {stack : List OpenType} {ts rest : List Token}
    {d' : TypeDescriptor} (hts : ∀ t ∈ ts, t.IsLexical)
    (hstack : ∀ o ∈ stack, o.WellFormed) (h : typeStart stack ts = .ok (d', rest)) :
    d'.WellFormed .parsed := by
  rcases typeStart_cases h with ⟨ts', heq⟩ | ⟨kind, ts', hn⟩ | ⟨n, ts', hn, hl⟩
  · have hlt : ts'.length < ts.length := by rw [heq]; exact Nat.lt_succ_self _
    rw [heq, List.forall_mem_cons] at hts
    rw [heq, typeStart_lparen] at h
    have hopen : (OpenType.union []).WellFormed := List.forall_mem_nil _
    exact wellFormed_of_typeStart hts.2 (List.forall_mem_cons.mpr ⟨hopen, hstack⟩) h
  · have hlt : ts'.length < ts.length := by
      have := length_lt_of_typeName hn
      rw [List.length_cons] at this
      omega
    obtain ⟨hkind, hts'⟩ := isTypeName_of_typeName hts hn
    rw [typeStart_of_langle hn] at h
    have hopen : (OpenType.generic kind []).WellFormed := ⟨hkind, List.forall_mem_nil _⟩
    exact wellFormed_of_typeStart (List.forall_mem_cons.mp hts').2
      (List.forall_mem_cons.mpr ⟨hopen, hstack⟩) h
  · have hlt := length_lt_of_typeName hn
    obtain ⟨hname, hts'⟩ := isTypeName_of_typeName hts hn
    rw [typeStart_of_name hn hl] at h
    exact wellFormed_of_typeMark hts' hstack (.primitive hname) rfl h
termination_by (ts.length, 0)
decreasing_by
  · exact Prod.Lex.left _ _ hlt
  · exact Prod.Lex.left _ _ hlt
  · exact Prod.Lex.left _ _ hlt

theorem wellFormed_of_typeMark {stack : List OpenType} {d d' : TypeDescriptor}
    {ts rest : List Token} (hts : ∀ t ∈ ts, t.IsLexical)
    (hstack : ∀ o ∈ stack, o.WellFormed) (hd : d.WellFormed .parsed)
    (hn : d.isNullable = false) (h : typeMark stack d ts = .ok (d', rest)) :
    d'.WellFormed .parsed := by
  by_cases hq : ts.head? = some (.symbol .question)
  · obtain ⟨ts', heq⟩ := List.head?_eq_some_iff.mp hq
    have hlt : ts'.length < ts.length := by rw [heq]; exact Nat.lt_succ_self _
    rw [heq, typeMark_question] at h
    rw [heq, List.forall_mem_cons] at hts
    exact wellFormed_of_typeEnd hts.2 hstack (.nullable hd hn) h
  · rw [typeMark_of_ne hq] at h
    exact wellFormed_of_typeEnd hts hstack hd h
termination_by (ts.length, 2)
decreasing_by
  · exact Prod.Lex.left _ _ hlt
  · exact Prod.Lex.right _ (by decide)

theorem wellFormed_of_typeEnd {stack : List OpenType} {d d' : TypeDescriptor}
    {ts rest : List Token} (hts : ∀ t ∈ ts, t.IsLexical)
    (hstack : ∀ o ∈ stack, o.WellFormed) (hd : d.WellFormed .parsed)
    (h : typeEnd stack d ts = .ok (d', rest)) : d'.WellFormed .parsed := by
  rcases typeEnd_cases h with hs | ⟨ms, stack', ts', hs, heq⟩ | ⟨ms, stack', ts', hs, hne, heq⟩
    | ⟨kind, args, stack', ts', hs, heq⟩ | ⟨kind, args, stack', ts', hs, heq⟩
  · rw [hs, typeEnd_nil] at h
    obtain ⟨rfl, -⟩ : d = d' ∧ ts = rest := by simpa using h
    exact hd
  all_goals
    have hlt : ts'.length < ts.length := by rw [heq]; exact Nat.lt_succ_self _
    rw [heq, List.forall_mem_cons] at hts
    rw [hs, List.forall_mem_cons] at hstack
  · rw [hs, heq, typeEnd_or] at h
    have hopen : (OpenType.union (ms ++ [d])).WellFormed :=
      wellFormed_append_singleton hstack.1 hd
    exact wellFormed_of_typeStart hts.2 (List.forall_mem_cons.mpr ⟨hopen, hstack.2⟩) h
  · rw [hs, heq, typeEnd_rparen hne] at h
    have htwo : 2 ≤ (ms ++ [d]).length := by
      have := List.length_pos_iff.mpr hne
      rw [List.length_append, List.length_singleton]
      omega
    have hunion := TypeDescriptor.WellFormed.union htwo (wellFormed_append_singleton hstack.1 hd)
    exact wellFormed_of_typeMark hts.2 hstack.2 hunion rfl h
  · rw [hs, heq, typeEnd_comma] at h
    have hopen : (OpenType.generic kind (args ++ [d])).WellFormed :=
      ⟨hstack.1.1, wellFormed_append_singleton hstack.1.2 hd⟩
    exact wellFormed_of_typeStart hts.2 (List.forall_mem_cons.mpr ⟨hopen, hstack.2⟩) h
  · rw [hs, heq, typeEnd_rangle] at h
    have hgeneric : (TypeDescriptor.generic kind (args ++ [d])).WellFormed .parsed :=
      .generic hstack.1.1 (by simp) (wellFormed_append_singleton hstack.1.2 hd)
    exact wellFormed_of_typeMark hts.2 hstack.2 hgeneric rfl h
termination_by (ts.length, 1)
decreasing_by
  all_goals exact Prod.Lex.left _ _ hlt

end

theorem yields_type : Yields (·.WellFormed .parsed) type :=
  peeks_type.yields fun _ _ _ hts h => wellFormed_of_typeStart hts (List.forall_mem_nil _) h

/-! ## Extended attributes -/

/-- Names joined to a first one are identifiers. -/
theorem qualifiers_eq_join {ts : List Token} (hts : ∀ t ∈ ts, t.IsLexical) :
    ∃ more, (∀ n ∈ more, isIdentifier n = true)
      ∧ ∀ first, first ++ (qualifiers ts).1 = Text.join ":" (first :: more) := by
  obtain ⟨more, hjoined, hjoin⟩ := eq_joined_append ts
  refine ⟨more, fun n hn => hts (.identifier n) ?_, hjoin⟩
  rw [hjoined]
  refine List.mem_append_left _ (List.mem_flatMap.mpr ⟨n, hn, ?_⟩)
  exact List.mem_cons_of_mem _ List.mem_cons_self

theorem yields_attributeValue : Yields Lexicon.parsed.value attributeValue := by
  refine local_attributeValue.yields fun ts v rest hts h => ?_
  cases attributeValue_eq_ok_iff.mp h with
  | string content => exact .inl (.string (hts _ List.mem_cons_self))
  | integer n => exact .inl (.integer (hts _ List.mem_cons_self))
  | float x => exact .inr ⟨x, rfl⟩
  | list hlist =>
    obtain ⟨⟨hne, hnames⟩, -⟩ := yields_name.commaList (List.forall_mem_cons.mp hts).2 hlist
    exact .inl (.list hne hnames)
  | @names t first mid ht =>
    rw [List.forall_mem_cons] at hts
    obtain ⟨more, hmore, hjoin⟩ := qualifiers_eq_join hts.2
    rw [hjoin]
    exact .inl (.names (hts.1.isWord ht) hmore)

theorem yields_extendedAttribute : Yields (·.WellFormed .parsed) extendedAttribute := by
  refine yields_name.bind fun n hn => (peeks_eat _).yields_any.bind fun b _ => ?_
  have hparens : ∀ value : Option AttributeValue, (∀ v ∈ value, Lexicon.parsed.value v) →
      Yields (·.WellFormed .parsed)
        (skipParens >>= fun _ => pure (⟨n, value⟩ : ExtendedAttribute)) :=
    fun value hv => peeks_skipParens.yields_any.bind fun _ _ => yields_pure ⟨hn, hv⟩
  refine Yields.ite ?_ (hparens none (by simp))
  refine (yields_attributeValue.bind fun v hv => yields_pure ?_).bind hparens
  rintro _ ⟨⟩
  exact hv

theorem yields_attributes :
    Yields (fun attrs => ∀ a ∈ attrs, a.WellFormed .parsed) attributes := by
  refine (peeks_eat _).yields_any.bind fun b _ =>
    Yields.ite ?_ (yields_pure (List.forall_mem_nil _))
  refine yields_extendedAttribute.commaList.bind fun attrs hattrs => ?_
  exact (closed_symbol _).yields_any.bind fun _ _ => yields_pure hattrs.2

/-! ## Members -/

theorem yields_argument : Yields (·.WellFormed .parsed) argument := by
  refine yields_attributes.bind fun attributes ha => (peeks_eat _).yields_any.bind fun o _ => ?_
  refine yields_type.bind fun type ht => (peeks_eat _).yields_any.bind fun v _ => ?_
  refine yields_name.bind fun name hn => ?_
  have hdone : Yields (·.WellFormed .parsed) (pure (⟨name, type, o, v, attributes⟩ : Argument)) :=
    yields_pure ⟨hn, ht, ha⟩
  refine Yields.ite ((peeks_eat _).yields_any.bind fun b _ => Yields.ite ?_ hdone) hdone
  exact closed_defaultValue.yields_any.bind fun _ _ => hdone

theorem yields_arguments : Yields (fun as => ∀ a ∈ as, a.WellFormed .parsed) arguments :=
  (peeks_check _).yields_any.bind fun _ _ =>
    Yields.ite (yields_pure (List.forall_mem_nil _)) (yields_argument.commaList.mono fun _ h => h.2)

theorem yields_constant : Yields (·.WellFormed .parsed) constant := by
  refine yields_type.bind fun _ _ => yields_name.bind fun _ _ => ?_
  refine (closed_symbol _).yields_any.bind fun _ _ => closed_defaultValue.yields_any.bind ?_
  exact fun _ _ => (closed_symbol _).yields_any.bind fun _ _ => yields_pure trivial

section Members

variable {attributes : List ExtendedAttribute} (ha : ∀ a ∈ attributes, a.WellFormed .parsed)

include ha

theorem yields_property : Yields (·.WellFormed .parsed) (property attributes) := by
  refine (peeks_eat _).yields_any.bind fun r _ => (closed_keyword _).yields_any.bind fun _ _ => ?_
  refine yields_type.bind fun type ht => yields_name.bind fun name hn => ?_
  refine (closed_symbol _).yields_any.bind fun _ _ => yields_pure ?_
  exact (⟨hn, ⟨type, rfl, ht⟩, ha⟩ : Property.WellFormed .parsed ⟨name, some type, r, attributes⟩)

theorem yields_operation : Yields (·.WellFormed .parsed) (operation attributes) := by
  refine yields_type.bind fun type ht => (peeks_check _).yields_any.bind fun b _ => ?_
  have hrest : ∀ name : String, name = "" ∨ isWord name = true →
      Yields (·.WellFormed .parsed) (Parser.symbol .lparen >>= fun _ =>
        arguments >>= fun arguments => Parser.symbol .rparen >>= fun _ =>
        Parser.symbol .semicolon >>= fun _ =>
        pure (Member.operation ⟨name, some type, arguments, attributes⟩)) := by
    intro name hn
    refine (closed_symbol _).yields_any.bind fun _ _ => yields_arguments.bind fun as has => ?_
    refine (closed_symbol _).yields_any.bind fun _ _ => (closed_symbol _).yields_any.bind ?_
    refine fun _ _ => yields_pure ?_
    exact (⟨hn, ⟨type, rfl, ht⟩, has, ha⟩ :
      Operation.WellFormed .parsed ⟨name, some type, as, attributes⟩)
  exact Yields.ite (hrest "" (.inl rfl)) (yields_name.bind fun n hn => hrest n (.inr hn))

end Members

theorem yields_member : Yields (·.WellFormed .parsed) member := by
  refine yields_attributes.bind fun attributes ha => (peeks_eat _).yields_any.bind fun b _ => ?_
  refine Yields.ite yields_constant (peeks_modifiers.yields_any.bind fun _ _ => ?_)
  refine (peeks_check _).yields_any.bind fun _ _ => (peeks_check _).yields_any.bind fun _ _ => ?_
  exact Yields.ite (yields_property ha) (yields_operation ha)

theorem yields_field : Yields (·.WellFormed .parsed) field := by
  refine yields_attributes.bind fun attributes ha => (peeks_eat _).yields_any.bind fun r _ => ?_
  refine yields_type.bind fun type ht => yields_name.bind fun name hn => ?_
  have hdone : Yields (·.WellFormed .parsed)
      (Parser.symbol .semicolon >>= fun _ => pure (⟨name, type, r, attributes⟩ : Field)) :=
    (closed_symbol _).yields_any.bind fun _ _ => yields_pure ⟨hn, ht, ha⟩
  refine (peeks_eat _).yields_any.bind fun _ _ => Yields.ite ?_ hdone
  exact closed_defaultValue.yields_any.bind fun _ _ => hdone

/-! ## Definitions -/

theorem yields_inherited : Yields (fun i => ∀ n ∈ i, isWord n = true) inherited := by
  refine (peeks_eat _).yields_any.bind fun b _ => Yields.ite ?_ (yields_pure (by simp))
  refine yields_name.bind fun n hn => yields_pure ?_
  rintro _ ⟨⟩
  exact hn

theorem yields_braced {α : Type} {P : α → Prop} {item : Parser α} (h : Yields P item) :
    Yields (fun as => ∀ a ∈ as, P a) (braced item) := by
  refine (closed_symbol _).yields_any.bind fun _ _ => (h.untilStop _).bind fun as has => ?_
  refine (closed_symbol _).yields_any.bind fun _ _ => ?_
  exact (closed_symbol _).yields_any.bind fun _ _ => yields_pure has

/-- The texts of an enumeration have no quotes. -/
theorem enumValues_no_quote {ts : List Token} (hts : ∀ t ∈ ts, t.IsLexical) :
    ∀ v ∈ (enumValues ts).1, '"' ∉ v.toList := by
  fun_induction enumValues ts with
  | case1 content rest _ _ hv ih =>
    rw [List.forall_mem_cons, List.forall_mem_cons] at hts
    rw [hv] at ih
    exact List.forall_mem_cons.mpr ⟨hts.1, ih hts.2.2⟩
  | case2 content rest =>
    exact List.forall_mem_singleton.mpr (hts (.string content) List.mem_cons_self)
  | case3 => exact List.forall_mem_nil _

theorem yields_someEnumValues :
    Yields (fun vs => vs ≠ [] ∧ ∀ v ∈ vs, '"' ∉ v.toList) someEnumValues := by
  refine peeks_someEnumValues.yields fun ts vs rest hts h => ?_
  obtain ⟨hv, hne⟩ := someEnumValues_eq_ok_iff.mp h
  have hquote := enumValues_no_quote hts
  rw [hv] at hquote
  exact ⟨hne, hquote⟩

section Definitions

variable {attributes : List ExtendedAttribute} (ha : ∀ a ∈ attributes, a.WellFormed .parsed)

include ha

theorem yields_interface : Yields (·.WellFormed .parsed) (interface attributes) := by
  refine (closed_keyword _).yields_any.bind fun _ _ => (peeks_eat _).yields_any.bind fun _ _ => ?_
  refine yields_name.bind fun name hn => yields_inherited.bind fun inherits hi => ?_
  refine (yields_braced yields_member).bind fun members hm => yields_pure ?_
  exact (⟨hn, hi, hm, ha⟩ : Interface.WellFormed .parsed ⟨name, inherits, members, attributes⟩)

theorem yields_dictionary : Yields (·.WellFormed .parsed) (dictionary attributes) := by
  refine (closed_keyword _).yields_any.bind fun _ _ => yields_name.bind fun name hn => ?_
  refine yields_inherited.bind fun inherits hi => ?_
  refine (yields_braced yields_field).bind fun fields hf => yields_pure ?_
  exact (⟨hn, hi, hf, ha⟩ : Dictionary.WellFormed .parsed ⟨name, inherits, fields, attributes⟩)

theorem yields_enumeration : Yields (·.WellFormed .parsed) (enumeration attributes) := by
  refine (closed_keyword _).yields_any.bind fun _ _ => yields_name.bind fun name hn => ?_
  refine (closed_symbol _).yields_any.bind fun _ _ => yields_someEnumValues.bind fun vs hv => ?_
  refine (closed_symbol _).yields_any.bind fun _ _ => (closed_symbol _).yields_any.bind ?_
  refine fun _ _ => yields_pure ?_
  exact (⟨hn, hv.1, hv.2, ha⟩ : Enumeration.WellFormed .parsed ⟨name, vs, attributes⟩)

theorem yields_typedef : Yields (·.WellFormed .parsed) (typedef attributes) := by
  refine (closed_keyword _).yields_any.bind fun _ _ => yields_attributes.bind fun _ _ => ?_
  refine yields_type.bind fun type ht => yields_name.bind fun name hn => ?_
  refine (closed_symbol _).yields_any.bind fun _ _ => yields_pure ?_
  exact (⟨hn, ht, ha⟩ : Typedef.WellFormed .parsed ⟨name, type, attributes⟩)

end Definitions

/-- **A definition that is read is well-formed.** -/
theorem yields_definition : Yields (·.WellFormed .parsed) definition := by
  refine yields_attributes.bind fun attributes ha => (peeks_eat _).yields_any.bind fun _ _ => ?_
  refine (peeks_check _).yields_any.bind fun _ _ => Yields.ite (yields_interface ha) ?_
  refine (peeks_check _).yields_any.bind fun _ _ => Yields.ite (yields_dictionary ha) ?_
  refine (peeks_check _).yields_any.bind fun _ _ => Yields.ite (yields_enumeration ha) ?_
  refine (peeks_check _).yields_any.bind fun _ _ => Yields.ite (yields_typedef ha) ?_
  exact yields_misfit _

/-- The definitions of a row of tokens of a text are well-formed. -/
theorem InRow.wellFormed {ts : List Token} {ds : List Definition} (h : InRow ts ds)
    (hts : ∀ t ∈ ts, t.IsLexical) : ∀ d ∈ ds, d.WellFormed .parsed := by
  induction h with
  | nil => exact List.forall_mem_nil _
  | cons hd _ ih =>
    obtain ⟨hfirst, hrest⟩ := yields_definition hts hd
    exact List.forall_mem_cons.mpr ⟨hfirst, ih hrest⟩

end Grammar

/-- What is parsed stands in a row of tokens that a text spells. -/
theorem exists_inRow_of_parse {source : String} {ds : List Definition}
    (h : parse source = .ok ds) : ∃ ts, Grammar.InRow ts ds ∧ ∀ t ∈ ts, t.IsLexical := by
  obtain ⟨ts, hts, hds⟩ := parse_eq_ok_iff.mp h
  refine ⟨ts, Grammar.inRow_of_document hds, fun t ht => ?_⟩
  obtain ⟨lex, hspells⟩ := Scan.spells_of_tokens? hts t ht
  exact hspells.isLexical

/-- **What is parsed is well-formed**, whatever the text. -/
theorem wellFormed_of_parse {source : String} {ds : List Definition}
    (h : parse source = .ok ds) : ∀ d ∈ ds, d.WellFormed .parsed := by
  obtain ⟨ts, hrow, hts⟩ := exists_inRow_of_parse h
  exact hrow.wellFormed hts

/-- A special operation without a name, with a type of several words inside a nullable
union. -/
theorem wellFormed_of_parse_interface :
    ∃ d, parse "[k=\"v\"] interface or : B \x7b getter (unsigned long long or A<C>?)? (); \x7d;"
        = .ok [d] ∧ d.WellFormed .parsed := by
  have h : parse "[k=\"v\"] interface or : B \x7b getter (unsigned long long or A<C>?)? (); \x7d;"
      = .ok [.interface ⟨"or", some "B",
          [.operation ⟨"", some (.nullable (.union [.primitive "unsigned long long",
            .nullable (.generic "A" [.primitive "C"])])), [], []⟩],
          [⟨"k", some (.string "\"v\"")⟩]⟩] := by
    with_unfolding_all rfl
  exact ⟨_, h, wellFormed_of_parse h _ List.mem_cons_self⟩

end IntentContract
