import IntentContract.Proofs.Grammar.Prompt.Types
import IntentContract.Proofs.Grammar.Prompt.Attributes

/-!
# Where a definition fails

The readers of members and definitions are put together from those of types and attributes, names
and single tokens, and each is guided because its parts are. Where a part may be missing, what can
stand in its place is told apart by the next token.
-/

namespace IntentContract.Grammar

open IntentContract.Parser

variable {ts mid : List Token} {e : SyntaxError}

/-! ## Members -/

/-- A default value that does not begin as one fails at its first token. -/
theorem defaultValue_eq_error
    (hl : ts.head? ≠ some (.symbol .lbracket)) (hb : ts.head? ≠ some (.symbol .lbrace))
    (h : defaultValue ts = .error e) :
    e = ⟨.defaultValue, ts⟩ ∧ ∀ ts', ts'.head? = ts.head? → ∃ e', defaultValue ts' = .error e' := by
  constructor
  · unfold defaultValue at h
    split at h
    · cases h
    · cases h
    · cases h
    · cases h
    · exact absurd rfl hl
    · exact absurd rfl hb
    · exact (Except.error.inj h).symm
  · intro ts' hts
    -- a first token that begins a value would have begun one before
    cases hrun : defaultValue ts' with
    | error e' => exact ⟨e', rfl⟩
    | ok r =>
      exfalso
      unfold defaultValue at hrun
      split at hrun
      · obtain ⟨rest, rfl⟩ := List.head?_eq_some_iff.mp hts.symm
        cases h
      · obtain ⟨rest, rfl⟩ := List.head?_eq_some_iff.mp hts.symm
        cases h
      · obtain ⟨rest, rfl⟩ := List.head?_eq_some_iff.mp hts.symm
        cases h
      · obtain ⟨rest, rfl⟩ := List.head?_eq_some_iff.mp hts.symm
        cases h
      · exact hl hts.symm
      · exact hb hts.symm
      · cases hrun

/-- Empty brackets that are not closed at once. -/
theorem promptAt_emptyBrackets (ts : List Token) :
    PromptAt Anything defaultValue (.symbol .lbracket :: ts) where
  stops u mid h := by
    obtain rfl : ts = .symbol .rbracket :: mid := symbol_eq_ok_iff.mp h
    exact ⟨[.symbol .lbracket, .symbol .rbracket], rfl,
      fun rest _ => symbol_eq_ok_iff.mpr rfl⟩
  fails e h := by
    obtain ⟨rfl, hhead⟩ := symbol_eq_error_iff.mp (show Parser.symbol .rbracket ts = _ from h)
    have hplace : ∀ used, SyntaxError.place ⟨.symbol .rbracket, ts⟩ (used ++ [.symbol .lbracket])
        = used.length + 1 := by
      intro used
      have hends := endsInValue_append_singleton used (t := .symbol .lbracket) rfl
      simp [SyntaxError.place, SyntaxError.Belated, SyntaxError.Premature, hends]
    have hone : SyntaxError.place ⟨.symbol .rbracket, ts⟩ [.symbol .lbracket] = 1 := hplace []
    refine ⟨[.symbol .lbracket], rfl, fun used => by rw [hplace, hone], ?_⟩
    · rw [hone]
      refine ⟨by simp, fun ts' hagree => ?_, fun _ => ?_⟩
      · obtain ⟨rest, rfl, hrest⟩ := exists_of_take_append (u := [.symbol .lbracket]) hagree
        have hhead' : rest.head? ≠ some (.symbol .rbracket) := by rwa [head?_eq_of_take hrest]
        exact ⟨_, symbol_eq_error_iff.mpr ⟨rfl, hhead'⟩⟩
      · exact ⟨[.symbol .rbracket], (), fun rest _ => symbol_eq_ok_iff.mpr rfl⟩

theorem guided_defaultValue : Guided Anything (some anyName) defaultValue where
  look := closed_defaultValue.mono (Nat.zero_le 1) (Nat.le_refl 1)
  opens := ⟨[anyName], (), rfl, fun _ _ => rfl⟩
  prompt ts := by
    by_cases hl : ts.head? = some (.symbol .lbracket)
    · obtain ⟨ts, rfl⟩ := List.head?_eq_some_iff.mp hl
      exact promptAt_emptyBrackets ts
    by_cases hb : ts.head? = some (.symbol .lbrace)
    · obtain ⟨ts, rfl⟩ := List.head?_eq_some_iff.mp hb
      have hclose : Guided Anything _ (Parser.symbol .rbrace) := guided_symbol (by decide)
      exact PromptAt.cons (fun _ => rfl) (hclose.prompt ts) hclose.opens
    · exact closed_defaultValue.promptAt (fun _ => ⟨by simp [SyntaxError.Belated], by simp⟩)
        fun e he => defaultValue_eq_error hl hb he

theorem modifiers_append {used rest : List Token} (hused : ∀ t ∈ used, isModifier t = true)
    (hrest : ∀ t ∈ rest.head?, isModifier t = false) :
    modifiers (used ++ rest) = .ok ((), rest) := by
  rw [modifiers, (Scan.span_run hused hrest).2]

theorem guided_modifiers : Guided (fun o => ∀ t ∈ o, isModifier t = false) none modifiers where
  look := peeks_modifiers
  opens := ⟨[], (), rfl, fun rest hrest => modifiers_append (List.forall_mem_nil _) hrest⟩
  prompt ts := by
    refine ⟨fun u mid h => ?_, fun e h => by cases h⟩
    obtain rfl : ts.dropWhile isModifier = mid := by
      simpa [modifiers] using h
    exact ⟨ts.takeWhile isModifier, List.takeWhile_append_dropWhile.symm,
      fun rest hrest => modifiers_append (Scan.forall_takeWhile isModifier ts) hrest⟩

theorem guided_argument : Guided (· ≠ some (.symbol .equals)) (some anyName) argument := by
  refine guided_attributes.bind (some anyName) (fun attributes => ?_) fun _ _ => by simp
  refine guided_flag (fun optional => ?_) fun _ _ => by simp
  refine guided_type.bind (some anyName) (fun type => ?_) fun _ _ => by simp [TypeFollow]
  refine guided_flag (fun variadic => ?_) fun _ _ => by simp
  refine guided_name.andThen none fun name => ?_
  cases optional with
  | false => exact guided_pure _
  | true =>
    refine guided_eat_bind (some anyName) ?_ (guided_pure _) (Nat.zero_le _) fun _ ho => ho
    exact guided_defaultValue.andThen none fun _ => guided_pure _

/-- The arguments of an operation, in front of its closing parenthesis. -/
theorem guided_arguments : Guided (· = some (.symbol .rparen)) none arguments := by
  have hlist : Guided (· = some (.symbol .rparen)) (some anyName) (Parser.commaList argument) :=
    guided_argument.commaList (by simp) fun o ho => by simp [ho]
  have harguments : arguments
      = choose (fun o => !(o == some (.symbol .rparen))) (Parser.commaList argument) (pure []) :=
    (check_bind _ _ _).trans (choose_not _ _ _)
  rw [harguments]
  exact hlist.choose (guided_pure []) (Nat.zero_le _) (fun _ _ => rfl) fun _ ho => by simp [ho]

/-- A token that ends a reader. -/
theorem guided_semicolon {α : Type} (a : α) : Guided Anything (some (.symbol .semicolon))
    (Parser.symbol .semicolon >>= fun _ => pure a) :=
  (guided_symbol (by decide)).andThen none fun _ => guided_pure a

theorem guided_constant : Guided Anything (some anyName) constant := by
  refine guided_type.bind (some anyName) (fun _ => ?_) fun _ _ => by simp [TypeFollow]
  refine guided_name.andThen (some (.symbol .equals)) fun _ => ?_
  refine (guided_symbol (by decide)).andThen (some anyName) fun _ => ?_
  exact guided_defaultValue.andThen _ fun _ => guided_semicolon _

theorem guided_property (attributes : List ExtendedAttribute) :
    Guided Anything (some (.keyword .attr)) (property attributes) := by
  refine guided_flag (fun readonly => ?_) fun _ _ => by simp
  refine (guided_keyword .attr).andThen (some anyName) fun _ => ?_
  refine guided_type.bind (some anyName) (fun type => ?_) fun _ _ => by simp [TypeFollow]
  exact guided_name.andThen _ fun name => guided_semicolon _

theorem guided_operation (attributes : List ExtendedAttribute) :
    Guided Anything (some anyName) (operation attributes) := by
  refine guided_type.bind (some anyName) (fun type => ?_) fun _ _ => by simp [TypeFollow]
  have hrest : ∀ name : String, Guided Anything (some (.symbol .lparen))
      (Parser.symbol .lparen >>= fun _ => arguments >>= fun arguments =>
        Parser.symbol .rparen >>= fun _ => Parser.symbol .semicolon >>= fun _ =>
        pure (Member.operation ⟨name, some type, arguments, attributes⟩)) := by
    intro name
    refine (guided_symbol (by decide)).andThen (some (.symbol .rparen)) fun _ => ?_
    refine guided_arguments.bind (some (.symbol .rparen)) (fun arguments => ?_)
      fun _ _ => rfl
    exact (guided_symbol (by decide)).andThen _ fun _ => guided_semicolon _
  have hname : Guided Anything (some anyName) (Parser.name >>= fun name =>
      Parser.symbol .lparen >>= fun _ => arguments >>= fun arguments =>
        Parser.symbol .rparen >>= fun _ => Parser.symbol .semicolon >>= fun _ =>
        pure (Member.operation ⟨name, some type, arguments, attributes⟩)) :=
    guided_name.andThen _ hrest
  have hchoose := (hrest "").choose (c := (· == some (.symbol .lparen))) hname (Nat.le_refl _)
    (fun _ _ => by simp) fun _ _ => by simp
  rw [← check_bind] at hchoose
  exact hchoose

theorem guided_member : Guided Anything (some anyName) member := by
  refine guided_attributes.bind (some anyName) (fun attributes => ?_) fun _ _ => by simp
  refine guided_eat_bind _ guided_constant ?_ (Nat.le_refl _) fun _ _ => by simp
  refine guided_modifiers.bind (some anyName) (fun _ => ?_) fun _ _ => by simp [isModifier]
  have hchoose := (guided_property attributes).choose
    (c := fun o => o == some (.keyword .readonly) || o == some (.keyword .attr))
    (guided_operation attributes) (Nat.le_refl _) (fun _ _ => by simp) fun _ _ => by simp
  have hcheck : (Parser.check (.keyword .readonly) >>= fun r => Parser.check (.keyword .attr) >>=
      fun a => if (r || a) = true then property attributes else operation attributes)
      = choose (fun o => o == some (.keyword .readonly) || o == some (.keyword .attr))
        (property attributes) (operation attributes) := by
    funext ts
    show (if _ then property attributes else operation attributes) ts = _
    unfold choose
    split <;> rfl
  rw [← hcheck] at hchoose
  exact hchoose

theorem guided_field : Guided Anything (some anyName) field := by
  refine guided_attributes.bind (some anyName) (fun attributes => ?_) fun _ _ => by simp
  refine guided_flag (fun required => ?_) fun _ _ => by simp
  refine guided_type.bind (some anyName) (fun type => ?_) fun _ _ => by simp [TypeFollow]
  refine guided_name.andThen (some (.symbol .semicolon)) fun name => ?_
  refine guided_eat_bind (some anyName) ?_ (guided_semicolon _) (Nat.le_refl _)
    fun _ _ => by simp
  exact guided_defaultValue.andThen _ fun _ => guided_semicolon _

/-! ## Definitions -/

theorem guided_inherited : Guided (· ≠ some (.symbol .colon)) none inherited := by
  refine guided_eat_bind (some anyName) ?_ (guided_pure none) (Nat.zero_le _) fun _ ho => ho
  exact guided_name.andThen none fun _ => guided_pure _

theorem guided_braced {α : Type} {item : Parser α} {t : Token}
    (hitem : Guided Anything (some t) item) (hclosed : Closed item) :
    Guided Anything (some (.symbol .lbrace)) (braced item) := by
  refine (guided_symbol (by decide)).andThen (some (.symbol .rbrace)) fun _ => ?_
  have hitems : Guided (· = some (.symbol .rbrace)) none
      (Parser.untilStop (· == some (.symbol .rbrace)) item) :=
    hitem.untilStop hclosed fun _ ho => by simp [ho]
  refine hitems.bind (some (.symbol .rbrace)) (fun items => ?_) fun _ _ => rfl
  exact (guided_symbol (by decide)).andThen _ fun _ => guided_semicolon _

theorem guided_interface (attributes : List ExtendedAttribute) :
    Guided Anything (some (.keyword .interface)) (interface attributes) := by
  refine (guided_keyword .interface).andThen (some anyName) fun _ => ?_
  refine guided_flag (fun _ => ?_) fun _ _ => by simp
  refine guided_name.andThen (some (.symbol .lbrace)) fun name => ?_
  refine guided_inherited.bind (some (.symbol .lbrace)) (fun inherits => ?_)
    fun _ _ => by simp
  exact (guided_braced guided_member closed_member).andThen none fun _ => guided_pure _

theorem guided_dictionary (attributes : List ExtendedAttribute) :
    Guided Anything (some (.keyword .dictionary)) (dictionary attributes) := by
  refine (guided_keyword .dictionary).andThen (some anyName) fun _ => ?_
  refine guided_name.andThen (some (.symbol .lbrace)) fun name => ?_
  refine guided_inherited.bind (some (.symbol .lbrace)) (fun inherits => ?_)
    fun _ _ => by simp
  exact (guided_braced guided_field closed_field).andThen none fun _ => guided_pure _

/-- The texts of an enumeration end before a token that is neither a text nor a comma. -/
theorem enumValues_stops (ts : List Token) :
    ∃ used, ts = used ++ (enumValues ts).2
      ∧ ∀ rest : List Token, rest.head? = some (.symbol .rbrace) →
        enumValues (used ++ rest) = ((enumValues ts).1, rest) := by
  fun_induction enumValues ts with
  | case1 content rest values rest' hv ih =>
    rw [hv] at ih
    obtain ⟨used, hrest, hrun⟩ := ih
    refine ⟨.string content :: .symbol .comma :: used, by rw [hrest]; rfl, fun ts hts => ?_⟩
    rw [List.cons_append, List.cons_append, enumValues, hrun ts hts]
  | case2 content rest hno =>
    refine ⟨[.string content], rfl, fun ts hts => ?_⟩
    obtain ⟨rest', rfl⟩ := List.head?_eq_some_iff.mp hts
    rfl
  | case3 ts hno₁ hno₂ =>
    refine ⟨[], rfl, fun ts hts => ?_⟩
    obtain ⟨rest', rfl⟩ := List.head?_eq_some_iff.mp hts
    rfl

/-- A text is taken, with what goes on behind it. -/
theorem enumValues_string (content : String) (ts : List Token) :
    (enumValues (.string content :: ts)).1 ≠ []
      ∧ (enumValues (.string content :: ts)).2.length < ts.length + 1 := by
  by_cases hcomma : ts.head? = some (.symbol .comma)
  · obtain ⟨rest, rfl⟩ := List.head?_eq_some_iff.mp hcomma
    obtain ⟨used, hrest, -⟩ := enumValues_stops rest
    have hlen := congrArg List.length hrest
    rw [List.length_append] at hlen
    rw [enumValues]
    refine ⟨List.cons_ne_nil _ _, ?_⟩
    rw [List.length_cons]
    dsimp only
    omega
  · rw [enumValues.eq_2]
    · exact ⟨List.cons_ne_nil _ _, Nat.lt_succ_self _⟩
    · rintro rest rfl
      exact hcomma rfl

theorem enumValues_of_ne (h : ∀ content, ts.head? ≠ some (.string content)) :
    enumValues ts = ([], ts) := by
  rw [enumValues.eq_3]
  · rintro content rest rfl
    exact h content rfl
  · rintro content rest rfl
    exact h content rfl

/-- Without a text there is an error, at the first token. -/
theorem someEnumValues_of_ne (h : ∀ content, ts.head? ≠ some (.string content)) :
    someEnumValues ts = .error ⟨.enumValue, ts⟩ := by
  rw [someEnumValues, enumValues_of_ne h]

theorem guided_someEnumValues :
    Guided (· = some (.symbol .rbrace)) (some (.string "x")) someEnumValues where
  look ts values rest h := by
    obtain ⟨used, rfl, -, hrun⟩ := peeks_someEnumValues ts h
    refine ⟨used, rfl, ?_, hrun⟩
    obtain ⟨hvalues, hne⟩ := someEnumValues_eq_ok_iff.mp h
    match used with
    | t :: used => exact Nat.le_add_left 1 _
    | [] =>
      exfalso
      by_cases hstring : ∃ content, rest.head? = some (.string content)
      · obtain ⟨content, hhead⟩ := hstring
        obtain ⟨rest', rfl⟩ := List.head?_eq_some_iff.mp hhead
        have hlt := (enumValues_string content rest').2
        rw [List.nil_append] at hvalues
        rw [hvalues] at hlt
        exact Nat.lt_irrefl _ hlt
      · rw [List.nil_append, enumValues_of_ne fun content hc => hstring ⟨content, hc⟩] at hvalues
        exact hne (Prod.mk.inj hvalues).1.symm
  opens := ⟨[.string "x"], ["x"], rfl, fun rest hrest => by
    obtain ⟨rest, rfl⟩ := List.head?_eq_some_iff.mp hrest
    rfl⟩
  prompt ts := by
    by_cases hstring : ∃ content, ts.head? = some (.string content)
    · obtain ⟨content, hhead⟩ := hstring
      obtain ⟨ts, rfl⟩ := List.head?_eq_some_iff.mp hhead
      have hvalues : enumValues (.string content :: ts) = (_, _) := rfl
      have hok := someEnumValues_eq_ok_iff.mpr ⟨hvalues, (enumValues_string content ts).1⟩
      refine ⟨fun values mid h => ?_, fun e h => nomatch hok.symm.trans h⟩
      obtain ⟨used, hts, hrun⟩ := enumValues_stops (.string content :: ts)
      obtain ⟨hvalues, hne⟩ := someEnumValues_eq_ok_iff.mp h
      rw [hvalues] at hts hrun
      exact ⟨used, hts, fun rest hrest => someEnumValues_eq_ok_iff.mpr ⟨hrun rest hrest, hne⟩⟩
    · have hne : ∀ content, ts.head? ≠ some (.string content) :=
        fun content hc => hstring ⟨content, hc⟩
      exact PromptAt.of_error (someEnumValues_of_ne hne) ⟨by simp [SyntaxError.Belated], by simp⟩
        fun ts' hts => ⟨_, someEnumValues_of_ne (by rwa [hts])⟩

theorem guided_enumeration (attributes : List ExtendedAttribute) :
    Guided Anything (some (.keyword .enum)) (enumeration attributes) := by
  refine (guided_keyword .enum).andThen (some anyName) fun _ => ?_
  refine guided_name.andThen (some (.symbol .lbrace)) fun name => ?_
  refine (guided_symbol (by decide)).andThen (some (.string "x")) fun _ => ?_
  refine guided_someEnumValues.bind (some (.symbol .rbrace)) (fun values => ?_)
    fun _ _ => rfl
  exact (guided_symbol (by decide)).andThen _ fun _ => guided_semicolon _

theorem guided_typedef (attributes : List ExtendedAttribute) :
    Guided Anything (some (.keyword .typedef)) (typedef attributes) := by
  refine (guided_keyword .typedef).andThen (some anyName) fun _ => ?_
  refine guided_attributes.bind (some anyName) (fun _ => ?_) fun _ _ => by simp
  refine guided_type.bind (some anyName) (fun type => ?_) fun _ _ => by simp [TypeFollow]
  exact guided_name.andThen _ fun name => guided_semicolon _

/-- **A definition is guided.** -/
theorem guided_definition :
    Guided Anything (some (.keyword .interface)) definition := by
  refine guided_attributes.bind (some (.keyword .interface)) (fun attributes => ?_)
    fun _ _ => by simp
  refine guided_flag (fun _ => ?_) fun _ _ => by simp
  -- the four kinds of definitions, by their keyword, and none without one
  have hmisfit : ∀ ts, PromptAt Anything
      (Parser.misfit .definition : Parser Definition) ts := fun ts =>
    PromptAt.of_error rfl ⟨by simp [SyntaxError.Belated], by simp⟩ fun _ _ => ⟨_, rfl⟩
  have hinterface := guided_interface attributes
  have hdictionary := guided_dictionary attributes
  have henumeration := guided_enumeration attributes
  have htypedef := guided_typedef attributes
  simp only [check_bind]
  have hlast := htypedef.look.choose (c := (· == some (.keyword .typedef)))
    (local_misfit .definition)
  have hthird := henumeration.look.choose (c := (· == some (.keyword .enum))) hlast
  have hsecond := hdictionary.look.choose (c := (· == some (.keyword .dictionary))) hthird
  refine ⟨hinterface.look.choose hsecond, fun ts => ?_, ?_⟩
  · refine (hinterface.prompt ts).choose_of_takes ?_ hinterface.look hsecond
    refine (hdictionary.prompt ts).choose_of_takes ?_ hdictionary.look hthird
    refine (henumeration.prompt ts).choose_of_takes ?_ henumeration.look hlast
    exact (htypedef.prompt ts).choose_of_takes (hmisfit ts) htypedef.look (local_misfit _)
  · obtain ⟨w, d, hw, hrun⟩ := hinterface.opens
    refine ⟨w, d, hw, fun rest hrest => ?_⟩
    rw [← hrun rest hrest]
    refine if_pos ?_
    rw [List.head?_append, hw]
    rfl

/-- **The definitions of a document are guided**, up to its end. -/
theorem guided_definitions :
    Guided (· = none) none (Parser.untilStop (·.isNone) definition) :=
  guided_definition.untilStop closed_definition fun _ ho => by rw [ho]; rfl

end IntentContract.Grammar
