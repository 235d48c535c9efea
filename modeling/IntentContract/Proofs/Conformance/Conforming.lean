import IntentContract.Proofs.Conformance.Definitions
import IntentContract.Proofs.Contract.WellFormed
import IntentContract.Proofs.Definition.Printer

/-!
# Contracts of conforming documents

A document is checked declaration by declaration, in every interface and with the declarations
that others replace. Its contract is made of the first interface alone and keeps one declaration
of a name. The two meet in the declarations: whatever the contract has, some declaration that was
checked stands for it (`exists_declaration`), so what a check admits carries over.

A check that finds no error says what it says about declarations (`isValid_iff`), and this module
draws two conclusions from it. An operation that asks for a delegation has a parameter for it, in
the contract as well, where types are texts. An operation has an intent that its document
declares. This is not to say that the intent is of use: a document can declare the empty text, and
that is the one way to an intent that says nothing.
-/

namespace IntentContract

/-! ## What a check admits -/

namespace DefinitionRules

variable {rules : DefinitionRules}

/-- **An operation that rules admit.** -/
structure AdmitsOperation (rules : DefinitionRules) (op : Operation) : Prop where
  allowed : ∀ a ∈ op.attributes, a.name ∈ rules.allowed
  required : ∀ n ∈ rules.requiredOfOperation, ∃ text,
    ExtendedAttribute.read op.attributes n = some text
  delegation : ExtendedAttribute.has op.attributes rules.delegationAttribute = true →
    ∃ a ∈ op.arguments, a.type.name? = some rules.delegationType

/-- **An interface that rules admit**, with all its operations. -/
structure AdmitsInterface (rules : DefinitionRules) (i : Interface) : Prop where
  allowed : ∀ a ∈ i.attributes, a.name ∈ rules.allowed
  required : ∀ n ∈ rules.requiredOfInterface, ∃ text,
    ExtendedAttribute.read i.attributes n = some text
  operations : ∀ op ∈ i.operations, rules.AdmitsOperation op

theorem kept_allowed_iff {b : Bearer} {a : ExtendedAttribute} :
    (∀ f, ¬ rules.Breach (.allowed b a) f) ↔ a.name ∈ rules.allowed := by
  constructor
  · intro hkept
    exact Classical.byContradiction fun hname => hkept _ (.allowed hname)
  · intro hname f hf
    cases hf with
    | allowed hunknown => exact hunknown hname

theorem kept_required_iff {b : Bearer} {n : String} :
    (∀ f, ¬ rules.Breach (.required b n) f)
      ↔ ∃ text, ExtendedAttribute.read b.attributes n = some text := by
  rw [ExtendedAttribute.exists_read_iff]
  constructor
  · intro hkept
    exact Classical.byContradiction fun hfirst => hkept _ (.required hfirst)
  · intro hfirst f hf
    cases hf with
    | required hmissing => exact hmissing hfirst

theorem kept_delegation_iff {i : Interface} {op : Operation} :
    (∀ f, ¬ rules.Breach (.delegation i op) f)
      ↔ (ExtendedAttribute.has op.attributes rules.delegationAttribute = true →
          ∃ a ∈ op.arguments, a.type.name? = some rules.delegationType) := by
  have hasks : ExtendedAttribute.has op.attributes rules.delegationAttribute = true
      ↔ ∃ a ∈ op.attributes, a.name = rules.delegationAttribute := by
    simp [ExtendedAttribute.has]
  simp only [hasks, TypeDescriptor.name?_eq_some_iff]
  constructor
  · intro hkept hattribute
    refine Classical.byContradiction fun htakes => ?_
    exact hkept _ (.delegation hattribute fun a ha hnamed => htakes ⟨a, ha, hnamed⟩)
  · rintro htakes f (_ | _ | ⟨hattribute, hnone⟩)
    obtain ⟨a, ha, hnamed⟩ := htakes hattribute
    exact hnone a ha hnamed

/-- An operation is admitted if it keeps its duties. -/
theorem admitsOperation_iff {i : Interface} {op : Operation} :
    rules.AdmitsOperation op
      ↔ ∀ d ∈ rules.dutiesOf (.operation i op), ∀ f, ¬ rules.Breach d f := by
  simp only [dutiesOf, List.forall_mem_append, List.forall_mem_map, List.forall_mem_singleton,
    kept_allowed_iff, kept_required_iff, kept_delegation_iff]
  constructor
  · intro h
    exact ⟨⟨h.allowed, h.required⟩, h.delegation⟩
  · rintro ⟨⟨hallowed, hrequired⟩, hdelegation⟩
    exact ⟨hallowed, hrequired, hdelegation⟩

/-- An interface is admitted if it and its operations keep their duties. -/
theorem admitsInterface_iff {i : Interface} :
    rules.AdmitsInterface i
      ↔ ∀ b ∈ bearersOf (.interface i), ∀ d ∈ rules.dutiesOf b, ∀ f, ¬ rules.Breach d f := by
  simp only [bearersOf, List.forall_mem_cons, List.forall_mem_map, ← admitsOperation_iff]
  simp only [dutiesOf, List.forall_mem_append, List.forall_mem_map, kept_allowed_iff,
    kept_required_iff]
  constructor
  · intro h
    exact ⟨⟨h.allowed, h.required⟩, h.operations⟩
  · rintro ⟨⟨hallowed, hrequired⟩, hoperations⟩
    exact ⟨hallowed, hrequired, hoperations⟩

/-- **A document without errors is one whose interfaces are all admitted.** -/
theorem isValid_iff {ds : List Definition} {report : Report} (h : rules.check ds = .ok report) :
    report.isValid = true ↔ ∀ i ∈ Definition.interfaces ds, rules.AdmitsInterface i := by
  have hbearers : ∀ b, b ∈ ds.flatMap bearersOf
      ↔ ∃ i ∈ Definition.interfaces ds, b ∈ bearersOf (.interface i) := by
    intro b
    rw [List.mem_flatMap]
    constructor
    · rintro ⟨d, hd, hb⟩
      cases d with
      | interface i => exact ⟨i, Definition.mem_interfaces_iff.mpr hd, hb⟩
      | dictionary | enumeration | typedef | other => cases hb
    · rintro ⟨i, hi, hb⟩
      exact ⟨_, Definition.mem_interfaces_iff.mp hi, hb⟩
  rw [(reported_check h).isValid_iff]
  simp only [admitsInterface_iff, duties, List.mem_flatMap, hbearers]
  constructor
  · intro hkept i hi b hb d hd
    exact hkept d ⟨b, ⟨i, hi, hb⟩, hd⟩
  · rintro hkept d ⟨b, ⟨i, hi, hb⟩, hd⟩
    exact hkept i hi b hb d hd

end DefinitionRules

/-! ## Declarations behind a contract -/

namespace Contract

/-- **Behind every operation of a contract there is a declaration.** -/
theorem exists_declaration {i : Interface} {op : ContractOperation}
    (h : op ∈ (ofInterface i).operations) : ∃ d ∈ i.operations, op = .ofDeclaration d := by
  obtain ⟨d, hlast, hd⟩ := exists_isLast_declaration h
  exact ⟨d, hlast.mem, hd⟩

/-- **A document without errors has a contract, and only declarations that are admitted stand
behind its operations.** -/
theorem build_of_isValid {rules : DefinitionRules} {ds : List Definition} {report : Report}
    (hcheck : rules.check ds = .ok report) (hvalid : report.isValid = true) :
    ∃ i ∈ Definition.interfaces ds, build ds = .ok (ofInterface i)
      ∧ ∀ op ∈ (ofInterface i).operations, ∃ d ∈ i.operations,
          op = .ofDeclaration d ∧ rules.AdmitsOperation d := by
  obtain ⟨i, is, hinterfaces, -⟩ := DefinitionRules.check_eq_ok_iff.mp hcheck
  have hmem : i ∈ Definition.interfaces ds := hinterfaces ▸ List.mem_cons_self
  have hadmits := (DefinitionRules.isValid_iff hcheck).mp hvalid i hmem
  refine ⟨i, hmem, by rw [build, hinterfaces], fun op hop => ?_⟩
  obtain ⟨d, hd, rfl⟩ := exists_declaration hop
  exact ⟨d, hd, rfl, hadmits.operations d hd⟩

end Contract

/-! ## Delegations -/

/-- A named type that is no primitive is written by its name, also if it is nullable. -/
theorem TypeDescriptor.text_of_name? {d : TypeDescriptor} {n : String} (h : d.name? = some n)
    (hn : targetName? n = none) : d.text = n := by
  fun_induction name? d with
  | case1 name =>
    obtain rfl := Option.some.inj h
    rw [text, hn]
    rfl
  | case2 inner ih => exact ih h
  | case3 => cases h

/-- **Whoever asks for a delegation takes one.** In the contract of a document without errors, an
operation that requires a delegation has a parameter of that type. -/
theorem Contract.exists_delegation_parameter {ds : List Definition} {report : Report}
    (hcheck : DefinitionRules.usual.check ds = .ok report) (hvalid : report.isValid = true) :
    ∃ c, build ds = .ok c ∧ ∀ op ∈ c.operations, op.extensions.delegation = true →
      ∃ p ∈ op.parameters, p.type.text = "DelegationContext" := by
  obtain ⟨i, -, hbuild, hops⟩ := build_of_isValid hcheck hvalid
  refine ⟨_, hbuild, fun op hop hasks => ?_⟩
  obtain ⟨d, -, rfl, hadmits⟩ := hops op hop
  obtain ⟨a, ha, hname⟩ := hadmits.delegation hasks
  exact ⟨⟨a.name, a.type⟩, List.mem_map_of_mem ha, TypeDescriptor.text_of_name? hname (by decide)⟩

/-- The declaration that is kept takes its delegation behind two marks of nullability, where the
one in front of it takes none and asks for none. -/
theorem Contract.exists_delegation_parameter_nullable :
    let intent : ExtendedAttribute := ⟨"Intent", some (.identifier "agent:Pay")⟩
    let context : TypeDescriptor := .nullable (.nullable (.primitive "DelegationContext"))
    let ds : List Definition := [.interface ⟨"Bank", none,
      [.operation ⟨"pay", none, [], [intent]⟩,
        .operation ⟨"pay", none, [⟨"sum", .primitive "double", false, false, []⟩,
          ⟨"by", context, true, false, []⟩], [intent, ⟨"Delegation", none⟩]⟩], []⟩]
    ∃ report, DefinitionRules.usual.check ds = .ok report ∧ report.isValid = true
      ∧ ∃ c, build ds = .ok c ∧ (∃ op ∈ c.operations, op.extensions.delegation = true)
        ∧ ∀ op ∈ c.operations, op.extensions.delegation = true →
          ∃ p ∈ op.parameters, p.type.text = "DelegationContext" := by
  intro intent context ds
  have hcheck : ∃ report, DefinitionRules.usual.check ds = .ok report ∧ report.isValid = true :=
    ⟨_, rfl, by decide⟩
  obtain ⟨report, hreport, hvalid⟩ := hcheck
  obtain ⟨c, hbuild, hparameter⟩ := exists_delegation_parameter hreport hvalid
  obtain rfl := Except.ok.inj hbuild
  exact ⟨report, hreport, hvalid, _, hbuild, ⟨_, List.mem_cons_self, by decide⟩, hparameter⟩

/-! ## Intents -/

/-- A number without an exponent has a digit in front. -/
theorem Decimal.positionalText_ne_empty (style : Style) (d : Decimal) :
    positionalText style d ≠ "" := by
  have hfront : d.digits.take (d.exponent.toNat + 1)
      ++ List.replicate (d.exponent.toNat + 1 - d.digits.length) '0' ≠ [] := by
    intro hnil
    have hlength := congrArg List.length hnil
    simp only [List.length_append, List.length_take, List.length_replicate, List.length_nil]
      at hlength
    omega
  have hwhole : ∀ front tail : List Char, front ≠ [] →
      (if tail.isEmpty then String.ofList front
        else String.ofList front ++ "." ++ String.ofList tail) ≠ "" := by
    intro front tail hne
    split
    · simpa using hne
    · simp
  unfold positionalText
  split
  · simp
  · exact hwhole _ _ hfront

theorem Double.text_floatStyle_ne_empty (x : Double) : x.text floatStyle ≠ "" := by
  cases x with
  | finite => simp [text, Decimal.text, floatStyle, Decimal.positionalText_ne_empty]
  | infinite => simp [text]

/-- Joined texts have the characters of the first. -/
theorem Text.join_cons_ne_empty {separator s : String} (hs : s ≠ "") (rest : List String) :
    join separator (s :: rest) ≠ "" := by
  cases rest with
  | nil => exact hs
  | cons t rest => simp [join, hs]

theorem Text.intText_ne_empty (n : Int) : intText n ≠ "" := by
  obtain ⟨sign, -, hchars, -⟩ := Token.toList_intText n
  rw [Ne, ← String.toList_eq_nil_iff, hchars]
  simp [Nat.toDigits_ne_nil]

/-- **Of the values that a document can give, only the empty literal has an empty text.** -/
theorem AttributeValue.text_eq_empty_iff {v : AttributeValue} (hv : Lexicon.parsed.value v)
    {text : String} (h : v.text? = some text) : text = "" ↔ v = .string (quoted "") := by
  have hidentifier : ∀ s, s ≠ "" → v = .identifier s → (text = "" ↔ v = .string (quoted "")) := by
    rintro s hs rfl
    obtain rfl := Option.some.inj h
    simp [hs]
  rcases hv with hexact | ⟨x, hx⟩
  · cases hexact with
    | @string content hcontent =>
      obtain rfl : content = text := by
        rw [← unquote_quoted content]
        exact Option.some.inj h
      constructor
      · rintro rfl
        rfl
      · intro heq
        rw [← unquote_quoted content, AttributeValue.string.inj heq, unquote_quoted]
    | integer hrange => exact hidentifier _ (Text.intText_ne_empty _) rfl
    | @names first more hfirst hmore =>
      have hne : first ≠ "" := by
        rintro rfl
        cases hfirst
      exact hidentifier _ (Text.join_cons_ne_empty hne more) rfl
    | list => cases h
  · exact hidentifier _ x.text_floatStyle_ne_empty hx

/-- **A document without errors declares the intent of every operation.** Behind an operation of
its contract there is a declaration whose first attribute for the intent has a value with a text.
The intent is that text, and it is empty only if the document spells out the empty literal. -/
theorem Contract.intent_declared {source : String} {ds : List Definition} {report : Report}
    (hparse : parse source = .ok ds) (hcheck : DefinitionRules.usual.check ds = .ok report)
    (hvalid : report.isValid = true) :
    ∃ i ∈ Definition.interfaces ds, ∃ c, build ds = .ok c ∧ ∀ op ∈ c.operations,
      ∃ d ∈ i.operations, op = .ofDeclaration d
        ∧ ∃ a v, d.attributes.find? (fun a => a.name == "Intent") = some a ∧ a.value = some v
          ∧ v.text? = some op.intent ∧ (op.intent = "" ↔ v = .string (quoted "")) := by
  obtain ⟨i, hi, hbuild, hops⟩ := build_of_isValid hcheck hvalid
  refine ⟨i, hi, _, hbuild, fun op hop => ?_⟩
  obtain ⟨d, hd, rfl, hadmits⟩ := hops op hop
  obtain ⟨text, hread⟩ := hadmits.required "Intent" List.mem_cons_self
  have hintent : (ContractOperation.ofDeclaration d).intent = text := by
    simp [ContractOperation.intent, ContractOperation.ofDeclaration, Extensions.ofAttributes, hread]
  obtain ⟨a, v, hfind, hvalue, htext⟩ := ExtendedAttribute.read_eq_some_iff.mp hread
  have hv : Lexicon.parsed.value v := by
    obtain ⟨ts, hrow, hts⟩ := exists_inRow_of_parse hparse
    have hinterface := wellFormed_of_mem_interfaces (hrow.wellFormed hts) hi
    have hdeclaration := wellFormed_of_mem_operations hinterface hd
    exact (hdeclaration.attributes a (List.mem_of_find?_eq_some hfind)).value v hvalue
  rw [hintent]
  exact ⟨d, hd, rfl, a, v, hfind, hvalue, htext, AttributeValue.text_eq_empty_iff hv htext⟩

/-- The first of two attributes counts, and the last of two declarations. -/
theorem Contract.intent_declared_repeated :
    ∃ ds report,
      parse "interface S \x7b [Intent=\"\"] void f(); [Intent=5, Intent] void f(); \x7d;" = .ok ds
      ∧ DefinitionRules.usual.check ds = .ok report ∧ report.isValid = true
      ∧ ∃ i ∈ Definition.interfaces ds, ∃ c, build ds = .ok c
        ∧ c.operations.map (·.intent) = ["5"] ∧ ∀ op ∈ c.operations,
          ∃ d ∈ i.operations, op = .ofDeclaration d
            ∧ ∃ a v, d.attributes.find? (fun a => a.name == "Intent") = some a ∧ a.value = some v
              ∧ v.text? = some op.intent ∧ (op.intent = "" ↔ v = .string (quoted "")) := by
  let void : Option TypeDescriptor := some (.primitive "void")
  let ds : List Definition := [.interface ⟨"S", none,
    [.operation ⟨"f", void, [], [⟨"Intent", some (.string "\"\"")⟩]⟩,
      .operation ⟨"f", void, [], [⟨"Intent", some (.identifier "5")⟩, ⟨"Intent", none⟩]⟩], []⟩]
  have hparse : parse
      "interface S \x7b [Intent=\"\"] void f(); [Intent=5, Intent] void f(); \x7d;" = .ok ds := by
    with_unfolding_all rfl
  have hcheck : ∃ report, DefinitionRules.usual.check ds = .ok report ∧ report.isValid = true :=
    ⟨_, rfl, by decide⟩
  obtain ⟨report, hreport, hvalid⟩ := hcheck
  obtain ⟨i, hi, c, hbuild, hops⟩ := intent_declared hparse hreport hvalid
  refine ⟨ds, report, hparse, hreport, hvalid, i, hi, c, hbuild, ?_, hops⟩
  obtain rfl := Except.ok.inj hbuild
  decide

/-- **An intent can be empty in a document without errors.** -/
theorem Contract.intent_empty_of_isValid :
    ∃ ds report c, parse "interface I \x7b [Intent=\"\"] void f(); \x7d;" = .ok ds
      ∧ DefinitionRules.usual.check ds = .ok report ∧ report.isValid = true
      ∧ build ds = .ok c ∧ ∃ op ∈ c.operations, op.intent = "" := by
  have hparse : parse "interface I \x7b [Intent=\"\"] void f(); \x7d;"
      = .ok [.interface ⟨"I", none, [.operation ⟨"f", some (.primitive "void"), [],
          [⟨"Intent", some (.string "\"\"")⟩]⟩], []⟩] := by
    with_unfolding_all rfl
  exact ⟨_, _, _, hparse, rfl, by decide, rfl, _, List.mem_cons_self, by decide⟩

end IntentContract
