import IntentContract.Contract.Basic
import IntentContract.Proofs.Grammar.Indifference
import IntentContract.Proofs.Grammar.Prompt.Types

/-!
# Documents that break off before a value

In one place of the grammar only can tokens break off: where the value of an extended attribute is
due. So whatever two values the tokens are continued with, a document tells them apart only as far
as its attributes do (`document_indifferent`).

Not all that is read reaches the contract, and two runs are compared by what does. Of an attribute
the name and the text of the value count, of an argument the parameter it gives, of a member the
operation, and of a definition the contract.
-/

namespace IntentContract

/-! ## What the contract is made of -/

/-- What is read of an attribute: its name, and the text of its value. -/
def ExtendedAttribute.reading (a : ExtendedAttribute) : String × Option String :=
  (a.name, a.value.bind AttributeValue.text?)

/-- The parameter that an argument gives. -/
def Argument.parameter (a : Argument) : Parameter :=
  ⟨a.name, a.type⟩

/-- The operation that a member gives. -/
def Member.offered (m : Member) : Option ContractOperation :=
  m.operation?.map .ofDeclaration

/-- The contract that a definition gives. -/
def Definition.contract? (d : Definition) : Option Contract :=
  d.interface?.map .ofInterface

theorem ExtendedAttribute.read_eq (attributes : List ExtendedAttribute) (name : String) :
    read attributes name = ((attributes.map reading).find? fun r => r.1 == name).bind (·.2) := by
  rw [List.find?_map, Option.bind_map]
  rfl

theorem ExtendedAttribute.has_eq (attributes : List ExtendedAttribute) (name : String) :
    has attributes name = (attributes.map reading).any fun r => r.1 == name := by
  rw [List.any_map]
  rfl

/-- The extensions are made of what is read of the attributes. -/
theorem Extensions.ofAttributes_congr {as as' : List ExtendedAttribute}
    (h : as.map ExtendedAttribute.reading = as'.map ExtendedAttribute.reading) :
    ofAttributes as = ofAttributes as' := by
  simp only [ofAttributes, ExtendedAttribute.read_eq, ExtendedAttribute.has_eq, h]

/-- An operation is made of its parameters and of what is read of its attributes. -/
theorem ContractOperation.ofDeclaration_congr {name : String} {returns : Option TypeDescriptor}
    {args args' : List Argument} {as as' : List ExtendedAttribute}
    (hargs : args.map Argument.parameter = args'.map Argument.parameter)
    (has : as.map ExtendedAttribute.reading = as'.map ExtendedAttribute.reading) :
    ofDeclaration ⟨name, returns, args, as⟩ = ofDeclaration ⟨name, returns, args', as'⟩ := by
  have hparameters : ∀ args : List Argument,
      (args.map fun a => (⟨a.name, a.type⟩ : Parameter)) = args.map Argument.parameter :=
    fun _ => rfl
  simp only [ofDeclaration, hparameters, hargs, Extensions.ofAttributes_congr has]

theorem Contract.ofInterface_eq (i : Interface) :
    ofInterface i = (((i.members.map Member.offered).filterMap id).filter (·.name != "")).foldl
      insert ⟨i.name, (Extensions.ofAttributes i.attributes).context,
        (Extensions.ofAttributes i.attributes).semantic, []⟩ := by
  have hoffered : (i.members.map Member.offered).filterMap id
      = i.operations.map ContractOperation.ofDeclaration := by
    rw [List.filterMap_map, Interface.operations, List.map_filterMap]
    rfl
  rw [hoffered, List.filter_map, List.foldl_map]
  rfl

/-- A contract is made of the operations and of what is read of the attributes. -/
theorem Contract.ofInterface_congr {name : String} {inherits inherits' : Option String}
    {members members' : List Member} {as as' : List ExtendedAttribute}
    (hmembers : members.map Member.offered = members'.map Member.offered)
    (has : as.map ExtendedAttribute.reading = as'.map ExtendedAttribute.reading) :
    ofInterface ⟨name, inherits, members, as⟩ = ofInterface ⟨name, inherits', members', as'⟩ := by
  rw [ofInterface_eq, ofInterface_eq, hmembers, Extensions.ofAttributes_congr has]

theorem Contract.build_congr {ds ds' : List Definition}
    (h : ds.map Definition.contract? = ds'.map Definition.contract?) : build ds = build ds' := by
  have hbuild : ∀ ds : List Definition, build ds
      = ((ds.map Definition.contract?).filterMap id).head?.elim (.error .noInterface) .ok := by
    intro ds
    have hcontracts : (ds.map Definition.contract?).filterMap id
        = (Definition.interfaces ds).map ofInterface := by
      rw [List.filterMap_map, Definition.interfaces, List.map_filterMap]
      rfl
    rw [hcontracts, build]
    cases Definition.interfaces ds <;> rfl
  rw [hbuild, hbuild, h]

end IntentContract

namespace IntentContract.Grammar

open IntentContract.Parser

variable {ts : List Token}

/-! ## Types -/

theorem TypeWords.getLast?_ne {used : List Token} {n : String} {more : Bool}
    (h : TypeWords used n more) : used.getLast? ≠ some (.symbol .equals) := by
  have hname : ∀ {t : Token} {word : String}, t.name? = some word → t ≠ .symbol .equals := by
    rintro t word ht rfl
    cases ht
  cases h with
  | plain hu hr => simp
  | longLong => simp
  | unsignedLongLong ht => simp
  | unsignedShort ht => simpa using hname ht
  | unsignedLong ht => simpa using hname ht
  | unrestricted ht hword => simpa using hname ht

/-- A name is missed in the name of a type only behind its first word. -/
theorem eq_of_typeName_eq_error (h : typeName ts = .error ⟨.identifier, []⟩) :
    ∃ first, ts = [.identifier first] := by
  by_cases hhead : ∃ first, ts.head? = some (.identifier first)
  · obtain ⟨first, hhead⟩ := hhead
    obtain ⟨rest, rfl⟩ := List.head?_eq_some_iff.mp hhead
    by_cases hfirst : first = "unsigned" ∨ first = "unrestricted"
    · obtain ⟨e, he, hcases⟩ := typeName_eq_error hfirst (fitsBehind_of_error hfirst h)
      obtain rfl : e = ⟨.identifier, []⟩ := Except.error.inj (he.symm.trans h)
      rcases hcases with heq | ⟨hbelated, -⟩
      · obtain ⟨-, rfl⟩ := SyntaxError.mk.inj heq
        exact ⟨first, rfl⟩
      · simp [SyntaxError.Belated] at hbelated
    · obtain ⟨r, hr⟩ := typeName_of_plain (fun h => hfirst (.inl h)) (fun h => hfirst (.inr h)) rest
      cases hr.symm.trans h
  · cases (typeName_of_ne fun n hn => hhead ⟨n, hn⟩).symm.trans h

theorem shuns_typeName : Shuns typeName := by
  intro ts
  cases hrun : typeName ts with
  | error e =>
    intro hlast
    refine ⟨fun h => ?_, fun a h => ?_⟩
    · obtain ⟨first, rfl⟩ := eq_of_typeName_eq_error h
      cases hlast
    · cases hrun.symm.trans h
  | ok r =>
    obtain ⟨n, rest⟩ := r
    obtain ⟨used, more, hwords, rfl, -⟩ := typeWords_of_typeName hrun
    exact ShunsAt.step used (q := pure n) hrun (shuns_pure n rest) hwords.getLast?_ne

mutual

theorem shunsAt_typeStart (stack : List OpenType) (ts : List Token) :
    ShunsAt (typeStart stack) ts := by
  by_cases hl : ts.head? = some (.symbol .lparen)
  · obtain ⟨rest, rfl⟩ := List.head?_eq_some_iff.mp hl
    exact ShunsAt.cons (typeStart_lparen stack rest)
      (shunsAt_typeStart (.union [] :: stack) rest) nofun
  · match hn : typeName ts with
    | .error e =>
      have hrun : typeStart stack ts = .error e := typeStart_of_error hl hn
      intro hlast
      rw [hrun]
      refine ⟨fun h => (shuns_typeName ts hlast).1 (hn.trans ?_), nofun⟩
      rw [Except.error.inj h]
    | .ok (n, mid) =>
      have hlt := length_lt_of_typeName hn
      obtain ⟨used, more, hwords, hts, -⟩ := typeWords_of_typeName hn
      by_cases hlangle : mid.head? = some (.symbol .langle)
      · obtain ⟨rest, rfl⟩ := List.head?_eq_some_iff.mp hlangle
        have hlt' : rest.length < ts.length := by
          rw [List.length_cons] at hlt
          omega
        have hrest := shunsAt_typeStart (.generic n [] :: stack) rest
        rw [hts, ← List.singleton_append, ← List.append_assoc] at hn ⊢
        exact ShunsAt.step _ (typeStart_of_langle hn) hrest (by simp)
      · have hmid := shunsAt_typeMark stack (.primitive n) mid
        rw [hts] at hn ⊢
        exact ShunsAt.step used (typeStart_of_name hn hlangle) hmid hwords.getLast?_ne
termination_by (ts.length, 0)

theorem shunsAt_typeMark (stack : List OpenType) (d : TypeDescriptor) (ts : List Token) :
    ShunsAt (typeMark stack d) ts := by
  by_cases hq : ts.head? = some (.symbol .question)
  · obtain ⟨rest, rfl⟩ := List.head?_eq_some_iff.mp hq
    exact ShunsAt.cons (typeMark_question stack d rest)
      (shunsAt_typeEnd stack (.nullable d) rest) nofun
  · exact ShunsAt.step [] (typeMark_of_ne hq) (shunsAt_typeEnd stack d ts) nofun
termination_by (ts.length, 2)

theorem shunsAt_typeEnd (stack : List OpenType) (d : TypeDescriptor) (ts : List Token) :
    ShunsAt (typeEnd stack d) ts := by
  match stack with
  | [] => exact ShunsAt.of_take_none (typeEnd_nil d ts)
  | .union ms :: stack =>
    by_cases hor : ts.head? = some (.keyword .or)
    · obtain ⟨rest, rfl⟩ := List.head?_eq_some_iff.mp hor
      exact ShunsAt.cons (typeEnd_or ms)
        (shunsAt_typeStart (.union (ms ++ [d]) :: stack) rest) nofun
    · by_cases hr : ms = [] ∨ ts.head? ≠ some (.symbol .rparen)
      · refine ShunsAt.of_error (typeEnd_union_error hor hr) ?_
        split <;> simp
      · obtain ⟨hms, hhead⟩ : ms ≠ [] ∧ ts.head? = some (.symbol .rparen) := by simpa using hr
        obtain ⟨rest, rfl⟩ := List.head?_eq_some_iff.mp hhead
        exact ShunsAt.cons (typeEnd_rparen hms)
          (shunsAt_typeMark stack (.union (ms ++ [d])) rest) nofun
  | .generic kind args :: stack =>
    by_cases hc : ts.head? = some (.symbol .comma)
    · obtain ⟨rest, rfl⟩ := List.head?_eq_some_iff.mp hc
      exact ShunsAt.cons (typeEnd_comma kind args)
        (shunsAt_typeStart (.generic kind (args ++ [d]) :: stack) rest) nofun
    · by_cases hr : ts.head? = some (.symbol .rangle)
      · obtain ⟨rest, rfl⟩ := List.head?_eq_some_iff.mp hr
        exact ShunsAt.cons (typeEnd_rangle kind args)
          (shunsAt_typeMark stack (.generic kind (args ++ [d])) rest) nofun
      · exact ShunsAt.of_error (typeEnd_generic_error hc hr) nofun
termination_by (ts.length, 1)

end

theorem shuns_type : Shuns type :=
  shunsAt_typeStart []

theorem type_nil : type [] = .error ⟨.type, []⟩ :=
  typeStart_of_error nofun rfl

/-! ## Members -/

theorem asksNoName_defaultValue : AsksNoName defaultValue := by
  intro ts
  unfold defaultValue
  split
  · nofun
  · nofun
  · nofun
  · nofun
  · exact asksNoName_symbol _ _
  · exact asksNoName_symbol _ _
  · nofun

theorem asksNoName_someEnumValues : AsksNoName someEnumValues := by
  intro ts
  unfold someEnumValues
  split
  · nofun
  · nofun

theorem shuns_modifiers : Shuns modifiers := by
  intro ts hlast
  refine ⟨nofun, fun u h => ?_⟩
  have hdrop : ts.dropWhile isModifier = [] := (Prod.mk.inj (Except.ok.inj h)).2
  have htake : ts.takeWhile isModifier = ts := by
    have happend := List.takeWhile_append_dropWhile (p := isModifier) (l := ts)
    rwa [hdrop, List.append_nil] at happend
  have hmem := List.mem_of_getLast? hlast
  rw [← htake] at hmem
  cases Scan.forall_takeWhile isModifier ts _ hmem

/-- Attributes end with a bracket. -/
theorem attributes_ne_ok (hlast : ts.getLast? = some (.symbol .equals))
    (as : List ExtendedAttribute) : attributes ts ≠ .ok (as, []) := by
  intro h
  obtain ⟨b, mid, heat, hrest⟩ := bind_eq_ok_iff.mp h
  rcases eat_eq_ok_iff.mp heat with ⟨rfl, rfl⟩ | ⟨rfl, rfl, -⟩
  · obtain ⟨attrs, rest, hlist, hclose⟩ := bind_eq_ok_iff.mp hrest
    obtain ⟨u, end', hsymbol, hpure⟩ := bind_eq_ok_iff.mp hclose
    obtain ⟨-, rfl⟩ := pure_eq_ok_iff.mp hpure
    obtain rfl := symbol_eq_ok_iff.mp hsymbol
    obtain ⟨used, rfl, -, -⟩ := local_commaList local_extendedAttribute mid hlist
    rw [← List.cons_append, List.getLast?_concat] at hlast
    cases hlast
  · obtain ⟨-, rfl⟩ := pure_eq_ok_iff.mp hrest
    cases hlast

section Indifferent

variable {xs ys : List Token}
  (hattrs : Indifferent xs ys (List.map ExtendedAttribute.reading) attributes)

include hattrs

/-- Behind the attributes only what is read of them counts. -/
theorem indifferent_attributes_bind {β δ : Type} {f : List ExtendedAttribute → Parser β}
    {g : β → δ}
    (halike : ∀ as as', as.map ExtendedAttribute.reading = as'.map ExtendedAttribute.reading →
      Alike g (f as) (f as'))
    (hf : ∀ as, Indifferent xs ys g (f as)) : Indifferent xs ys g (attributes >>= f) :=
  hattrs.bind peeks_attributes halike (fun _ as hlast => attributes_ne_ok hlast as) hf

theorem indifferent_argument : Indifferent xs ys Argument.parameter argument := by
  refine indifferent_attributes_bind hattrs (fun as as' _ => ?_) fun as => ?_
  · refine Alike.bind fun optional => Alike.bind fun type => Alike.bind fun variadic => ?_
    refine Alike.bind fun name => ?_
    refine Alike.ite (Alike.bind fun b => Alike.ite ?_ (alike_pure rfl)) (alike_pure rfl)
    exact Alike.bind fun _ => alike_pure rfl
  · refine (shuns_eat (by simp)).indifferent_bind (peeks_eat _) fun optional => ?_
    refine shuns_type.indifferent_bind peeks_type fun type => ?_
    refine (shuns_eat (by simp)).indifferent_bind (peeks_eat _) fun variadic => ?_
    refine shuns_name.indifferent_bind closed_name.peeks fun name => ?_
    refine AsksNoName.indifferent (AsksNoName.ite ?_ (asksNoName_pure _))
    refine (asksNoName_eat _).bind fun b => AsksNoName.ite ?_ (asksNoName_pure _)
    exact asksNoName_defaultValue.bind fun _ => asksNoName_pure _

theorem indifferent_arguments : Indifferent xs ys (List.map Argument.parameter) arguments := by
  refine (shuns_check _).indifferent_bind (peeks_check _) fun _ => ?_
  refine Indifferent.ite (shuns_pure []).indifferent ?_
  exact (indifferent_argument hattrs).commaList (peeks_argument.mono (by decide) (Nat.le_refl 0))

omit hattrs in
theorem alike_operation {as as' : List ExtendedAttribute}
    (h : as.map ExtendedAttribute.reading = as'.map ExtendedAttribute.reading) :
    Alike Member.offered (operation as) (operation as') := by
  refine Alike.bind fun type => Alike.bind fun b => ?_
  have hrest : ∀ name : String, Alike Member.offered
      (Parser.symbol .lparen >>= fun _ => arguments >>= fun arguments =>
        Parser.symbol .rparen >>= fun _ => Parser.symbol .semicolon >>= fun _ =>
        pure (Member.operation ⟨name, some type, arguments, as⟩))
      (Parser.symbol .lparen >>= fun _ => arguments >>= fun arguments =>
        Parser.symbol .rparen >>= fun _ => Parser.symbol .semicolon >>= fun _ =>
        pure (Member.operation ⟨name, some type, arguments, as'⟩)) := by
    intro name
    refine Alike.bind fun _ => Alike.bind fun arguments => ?_
    refine Alike.bind fun _ => Alike.bind fun _ => ?_
    exact alike_pure (congrArg some (ContractOperation.ofDeclaration_congr rfl h))
  exact Alike.ite (hrest "") (Alike.bind hrest)

omit hattrs in
theorem alike_property (as as' : List ExtendedAttribute) :
    Alike Member.offered (property as) (property as') :=
  Alike.bind fun _ => Alike.bind fun _ => Alike.bind fun _ => Alike.bind fun _ =>
    Alike.bind fun _ => alike_pure rfl

theorem indifferent_operation (as : List ExtendedAttribute) :
    Indifferent xs ys Member.offered (operation as) := by
  refine shuns_type.indifferent_bind peeks_type fun type => ?_
  refine (shuns_check _).indifferent_bind (peeks_check _) fun b => ?_
  have hrest : ∀ name : String, Indifferent xs ys Member.offered
      (Parser.symbol .lparen >>= fun _ => arguments >>= fun arguments =>
        Parser.symbol .rparen >>= fun _ => Parser.symbol .semicolon >>= fun _ =>
        pure (Member.operation ⟨name, some type, arguments, as⟩)) := by
    intro name
    refine (shuns_symbol (by decide)).indifferent_bind (closed_symbol _).peeks fun _ => ?_
    refine (indifferent_arguments hattrs).bind_asksNoName (fun args args' h => ?_) fun args => ?_
    · refine Alike.bind fun _ => Alike.bind fun _ => ?_
      exact alike_pure (congrArg some (ContractOperation.ofDeclaration_congr h rfl))
    · refine (asksNoName_symbol _).bind fun _ => ?_
      exact (asksNoName_symbol _).bind fun _ => asksNoName_pure _
  exact Indifferent.ite (hrest "") (shuns_name.indifferent_bind closed_name.peeks hrest)

omit hattrs in
theorem indifferent_constant : Indifferent xs ys Member.offered constant := by
  refine shuns_type.indifferent_bind peeks_type fun _ => ?_
  refine shuns_name.indifferent_bind closed_name.peeks fun _ => ?_
  refine AsksNoName.indifferent ((asksNoName_symbol _).bind fun _ => ?_)
  exact asksNoName_defaultValue.bind fun _ => (asksNoName_symbol _).bind fun _ => asksNoName_pure _

omit hattrs in
theorem indifferent_property (as : List ExtendedAttribute) :
    Indifferent xs ys Member.offered (property as) := by
  refine (shuns_eat (by simp)).indifferent_bind (peeks_eat _) fun _ => ?_
  refine (shuns_keyword _).indifferent_bind (closed_keyword _).peeks fun _ => ?_
  refine shuns_type.indifferent_bind peeks_type fun _ => ?_
  refine shuns_name.indifferent_bind closed_name.peeks fun _ => ?_
  exact AsksNoName.indifferent ((asksNoName_symbol _).bind fun _ => asksNoName_pure _)

theorem indifferent_member : Indifferent xs ys Member.offered member := by
  refine indifferent_attributes_bind hattrs (fun as as' h => ?_) fun as => ?_
  · refine Alike.bind fun _ => Alike.ite (Alike.refl _) (Alike.bind fun _ => ?_)
    refine Alike.bind fun _ => Alike.bind fun _ => ?_
    exact Alike.ite (alike_property as as') (alike_operation h)
  · refine (shuns_eat (by simp)).indifferent_bind (peeks_eat _) fun _ => ?_
    refine Indifferent.ite indifferent_constant ?_
    refine shuns_modifiers.indifferent_bind peeks_modifiers fun _ => ?_
    refine (shuns_check _).indifferent_bind (peeks_check _) fun _ => ?_
    refine (shuns_check _).indifferent_bind (peeks_check _) fun _ => ?_
    exact Indifferent.ite (indifferent_property as) (indifferent_operation hattrs as)

/-- Nothing of a field reaches the contract. -/
theorem indifferent_field : Indifferent xs ys (fun _ => ()) field := by
  refine indifferent_attributes_bind hattrs (fun as as' _ => ?_) fun as => ?_
  · refine Alike.bind fun _ => Alike.bind fun _ => Alike.bind fun _ => Alike.bind fun _ => ?_
    exact Alike.ite (Alike.bind fun _ => Alike.bind fun _ => alike_pure rfl)
      (Alike.bind fun _ => alike_pure rfl)
  · refine (shuns_eat (by simp)).indifferent_bind (peeks_eat _) fun _ => ?_
    refine shuns_type.indifferent_bind peeks_type fun _ => ?_
    refine shuns_name.indifferent_bind closed_name.peeks fun _ => ?_
    have hend : ∀ x : Field, AsksNoName (Parser.symbol .semicolon >>= fun _ => pure x) :=
      fun x => (asksNoName_symbol _).bind fun _ => asksNoName_pure x
    refine AsksNoName.indifferent ((asksNoName_eat _).bind fun _ => ?_)
    exact AsksNoName.ite (asksNoName_defaultValue.bind fun _ => hend _) (hend _)

/-! ## Definitions -/

omit hattrs in
theorem shuns_inherited : Shuns inherited := by
  refine (shuns_eat (by simp)).bind (peeks_eat _) fun b => ?_
  cases b with
  | true => exact shuns_name.bind closed_name.peeks fun n => shuns_pure (some n)
  | false => exact shuns_pure none

omit hattrs in
theorem indifferent_braced {α γ : Type} {g : α → γ} {item : Parser α}
    (hitem : Indifferent xs ys g item) (hlook : Closed item)
    (hnil : item [] = .error ⟨.type, []⟩) : Indifferent xs ys (List.map g) (braced item) := by
  refine (shuns_symbol (by decide)).indifferent_bind (closed_symbol _).peeks fun _ => ?_
  have hitems : Indifferent xs ys (List.map g)
      (Parser.untilStop (· == some (.symbol .rbrace)) item) := by
    refine hitem.untilStop hlook ?_
    rw [untilStop_of_error rfl hnil]
    nofun
  refine hitems.bind_asksNoName (fun items items' h => ?_) fun items => ?_
  · exact Alike.bind fun _ => Alike.bind fun _ => alike_pure h
  · refine (asksNoName_symbol _).bind fun _ => ?_
    exact (asksNoName_symbol _).bind fun _ => asksNoName_pure items

omit hattrs in
theorem member_nil : member [] = .error ⟨.type, []⟩ :=
  (bind_of_error type_nil : operation [] [] = _)

omit hattrs in
theorem field_nil : field [] = .error ⟨.type, []⟩ :=
  (bind_of_error type_nil : (type >>= fun _ => Parser.name >>= fun _ => _) [] = _)

theorem indifferent_interface (as : List ExtendedAttribute) :
    Indifferent xs ys Definition.contract? (interface as) := by
  refine (shuns_keyword _).indifferent_bind (closed_keyword _).peeks fun _ => ?_
  refine (shuns_eat (by simp)).indifferent_bind (peeks_eat _) fun _ => ?_
  refine shuns_name.indifferent_bind closed_name.peeks fun name => ?_
  refine shuns_inherited.indifferent_bind peeks_inherited fun inherits => ?_
  have hmembers := indifferent_braced (indifferent_member hattrs) closed_member member_nil
  refine hmembers.bind_asksNoName (fun members members' h => ?_) fun members => asksNoName_pure _
  exact alike_pure (congrArg some (Contract.ofInterface_congr h rfl))

theorem indifferent_dictionary (as : List ExtendedAttribute) :
    Indifferent xs ys Definition.contract? (dictionary as) := by
  refine (shuns_keyword _).indifferent_bind (closed_keyword _).peeks fun _ => ?_
  refine shuns_name.indifferent_bind closed_name.peeks fun name => ?_
  refine shuns_inherited.indifferent_bind peeks_inherited fun inherits => ?_
  have hfields := indifferent_braced (indifferent_field hattrs) closed_field field_nil
  exact hfields.bind_asksNoName (fun fields fields' _ => alike_pure rfl)
    fun fields => asksNoName_pure _

omit hattrs in
theorem indifferent_enumeration (as : List ExtendedAttribute) :
    Indifferent xs ys Definition.contract? (enumeration as) := by
  refine (shuns_keyword _).indifferent_bind (closed_keyword _).peeks fun _ => ?_
  refine shuns_name.indifferent_bind closed_name.peeks fun name => ?_
  refine AsksNoName.indifferent ((asksNoName_symbol _).bind fun _ => ?_)
  refine asksNoName_someEnumValues.bind fun values => (asksNoName_symbol _).bind fun _ => ?_
  exact (asksNoName_symbol _).bind fun _ => asksNoName_pure _

theorem indifferent_typedef (as : List ExtendedAttribute) :
    Indifferent xs ys Definition.contract? (typedef as) := by
  refine (shuns_keyword _).indifferent_bind (closed_keyword _).peeks fun _ => ?_
  refine indifferent_attributes_bind hattrs (fun _ _ _ _ => rfl) fun _ => ?_
  refine shuns_type.indifferent_bind peeks_type fun type => ?_
  refine shuns_name.indifferent_bind closed_name.peeks fun name => ?_
  exact AsksNoName.indifferent ((asksNoName_symbol _).bind fun _ => asksNoName_pure _)

omit hattrs in
theorem alike_interface {as as' : List ExtendedAttribute}
    (h : as.map ExtendedAttribute.reading = as'.map ExtendedAttribute.reading) :
    Alike Definition.contract? (interface as) (interface as') := by
  refine Alike.bind fun _ => Alike.bind fun _ => Alike.bind fun _ => Alike.bind fun _ => ?_
  exact Alike.bind fun _ => alike_pure (congrArg some (Contract.ofInterface_congr rfl h))

/-- **A definition is indifferent** as far as its attributes are. -/
theorem indifferent_definition : Indifferent xs ys Definition.contract? definition := by
  refine indifferent_attributes_bind hattrs (fun as as' h => ?_) fun as => ?_
  · -- only an interface gives a contract
    have hdictionary : Alike Definition.contract? (dictionary as) (dictionary as') :=
      Alike.bind fun _ => Alike.bind fun _ => Alike.bind fun _ => Alike.bind fun _ => alike_pure rfl
    have henumeration : Alike Definition.contract? (enumeration as) (enumeration as') :=
      Alike.bind fun _ => Alike.bind fun _ => Alike.bind fun _ => Alike.bind fun _ =>
        Alike.bind fun _ => Alike.bind fun _ => alike_pure rfl
    have htypedef : Alike Definition.contract? (typedef as) (typedef as') :=
      Alike.bind fun _ => Alike.bind fun _ => Alike.bind fun _ => Alike.bind fun _ =>
        Alike.bind fun _ => alike_pure rfl
    refine Alike.bind fun _ => Alike.bind fun _ => Alike.ite (alike_interface h) ?_
    refine Alike.bind fun _ => Alike.ite hdictionary (Alike.bind fun _ => ?_)
    exact Alike.ite henumeration (Alike.bind fun _ => Alike.ite htypedef (Alike.refl _))
  · refine (shuns_eat (by simp)).indifferent_bind (peeks_eat _) fun _ => ?_
    refine (shuns_check _).indifferent_bind (peeks_check _) fun _ => ?_
    refine Indifferent.ite (indifferent_interface hattrs as) ?_
    refine (shuns_check _).indifferent_bind (peeks_check _) fun _ => ?_
    refine Indifferent.ite (indifferent_dictionary hattrs as) ?_
    refine (shuns_check _).indifferent_bind (peeks_check _) fun _ => ?_
    refine Indifferent.ite (indifferent_enumeration as) ?_
    refine (shuns_check _).indifferent_bind (peeks_check _) fun _ => ?_
    exact Indifferent.ite (indifferent_typedef hattrs as) (shuns_misfit (by simp)).indifferent

/-- **A document is indifferent** as far as its attributes are: if it breaks off, the contract of
what it is continued to is the same. -/
theorem document_indifferent (hdocument : document ts = .error ⟨.identifier, []⟩)
    (hlast : ts.getLast? = some (.symbol .equals)) :
    (document (ts ++ xs)).toOption.map Contract.build
      = (document (ts ++ ys)).toOption.map Contract.build := by
  have hnil : Parser.untilStop (·.isNone) definition [] ≠ .error ⟨.identifier, []⟩ := by
    rw [untilStop_of_stop rfl]
    nofun
  have hbreak : BreaksOff (Parser.untilStop (·.isNone) definition) ts := by
    refine ⟨?_, hlast⟩
    unfold document at hdocument
    cases hrun : Parser.untilStop (·.isNone) definition ts with
    | error e =>
      rw [hrun] at hdocument
      rw [Except.error.inj hdocument]
    | ok r =>
      rw [hrun] at hdocument
      cases hdocument
  have hview := (indifferent_definition hattrs).untilStop closed_definition hnil ts hbreak
  unfold document
  rcases view_eq_iff.mp hview with ⟨e, e', he, he'⟩ | ⟨ds, ds', rest, hds, hds', hsame⟩
  · rw [he, he']
    rfl
  · rw [hds, hds']
    exact congrArg some (Contract.build_congr hsame)

end Indifferent

end IntentContract.Grammar
