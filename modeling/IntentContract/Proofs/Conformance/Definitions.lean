import IntentContract.Conformance.DefinitionRules
import IntentContract.Contract.Basic
import IntentContract.Proofs.Conformance.Reported

/-!
# What is found in definitions

The rules for definitions bind every interface of a document and every operation of an interface,
named or not. Each of these **bearers** owes the same two things for its extended attributes, that
rules know each of them and that those which are required say something, and an operation owes one
more if it asks for a delegation. Listed in the order of the document these are all the duties
there are (`DefinitionRules.duties`), and the errors of the check are those that are broken. That a
name is declared again is no breach: the check warns of it, in between, and it is left out here.
-/

namespace IntentContract

/-! ## What an attribute says, and what a type is called -/

/-- A value with a text: a name or a string, and not a list of names. -/
inductive AttributeValue.IsText : AttributeValue → Prop where
  | identifier (text : String) : IsText (.identifier text)
  | string (raw : String) : IsText (.string raw)

theorem AttributeValue.exists_text_iff {v : AttributeValue} :
    (∃ text, v.text? = some text) ↔ v.IsText := by
  cases v with
  | identifier text => exact iff_of_true ⟨text, rfl⟩ (.identifier text)
  | string raw => exact iff_of_true ⟨_, rfl⟩ (.string raw)
  | list names => exact iff_of_false nofun nofun

/-- An attribute is read if the first of its name has a value with a text. -/
theorem ExtendedAttribute.read_eq_some_iff {attributes : List ExtendedAttribute}
    {name text : String} :
    read attributes name = some text ↔ ∃ a v, attributes.find? (fun a => a.name == name) = some a
      ∧ a.value = some v ∧ v.text? = some text := by
  simp only [read, Option.bind_eq_bind, Option.bind_eq_some_iff]
  exact ⟨fun ⟨a, ha, v, hv, ht⟩ => ⟨a, v, ha, hv, ht⟩, fun ⟨a, v, ha, hv, ht⟩ => ⟨a, ha, v, hv, ht⟩⟩

/-- **The first attribute of a name has a text.** Those behind it do not count, whether they have
one or not. -/
def ExtendedAttribute.FirstHasText (attributes : List ExtendedAttribute) (name : String) : Prop :=
  ∃ before a after, attributes = before ++ a :: after ∧ (∀ b ∈ before, b.name ≠ name)
    ∧ a.name = name ∧ ∃ v, a.value = some v ∧ v.IsText

theorem ExtendedAttribute.exists_read_iff {attributes : List ExtendedAttribute} {name : String} :
    (∃ text, read attributes name = some text) ↔ FirstHasText attributes name := by
  have hfirst : ∀ a, attributes.find? (fun a => a.name == name) = some a
      ↔ a.name = name ∧ ∃ before after, attributes = before ++ a :: after
        ∧ ∀ b ∈ before, b.name ≠ name := by
    intro a
    simp [List.find?_eq_some_iff_append]
  constructor
  · rintro ⟨text, hread⟩
    obtain ⟨a, v, hfind, hvalue, htext⟩ := read_eq_some_iff.mp hread
    obtain ⟨hname, before, after, hsplit, hbefore⟩ := (hfirst a).mp hfind
    exact ⟨before, a, after, hsplit, hbefore, hname, v, hvalue,
      AttributeValue.exists_text_iff.mp ⟨text, htext⟩⟩
  · rintro ⟨before, a, after, hsplit, hbefore, hname, v, hvalue, htext⟩
    obtain ⟨text, htext⟩ := AttributeValue.exists_text_iff.mpr htext
    have hfind := (hfirst a).mpr ⟨hname, before, after, hsplit, hbefore⟩
    exact ⟨text, read_eq_some_iff.mpr ⟨a, v, hfind, hvalue, htext⟩⟩

/-- **What a type is called**, under any number of marks of nullability. -/
inductive TypeDescriptor.Named : TypeDescriptor → String → Prop where
  | primitive (name : String) : Named (.primitive name) name
  | nullable {inner : TypeDescriptor} {name : String} (h : Named inner name) :
      Named (.nullable inner) name

theorem TypeDescriptor.name?_eq_some_iff {d : TypeDescriptor} {n : String} :
    d.name? = some n ↔ d.Named n := by
  fun_induction name? d with
  | case1 name =>
    constructor
    · intro h
      obtain rfl := Option.some.inj h
      exact .primitive name
    · rintro ⟨⟩
      rfl
  | case2 inner ih =>
    rw [ih]
    constructor
    · exact .nullable
    · rintro ⟨⟩
      assumption
  | case3 d hprimitive hnullable =>
    refine iff_of_false nofun fun h => ?_
    cases h with
    | primitive => exact hprimitive _ rfl
    | nullable h => exact hnullable _ rfl

/-! ## Duties -/

namespace DefinitionRules

/-- **Who is bound by rules**: an interface, or an operation of one. -/
inductive Bearer where
  | interface (i : Interface)
  | operation (i : Interface) (op : Operation)

/-- The extended attributes of a bearer. -/
def Bearer.attributes : Bearer → List ExtendedAttribute
  | .interface i => i.attributes
  | .operation _ op => op.attributes

/-- Where a bearer is found. -/
def Bearer.location : Bearer → String
  | .interface i => i.name
  | .operation i op =>
    if op.name = "" then i.name ++ ".<anonymous>" else i.name ++ "." ++ op.name

/-- The bearers that a definition brings: an interface, and behind it its operations. -/
def bearersOf : Definition → List Bearer
  | .interface i => .interface i :: i.operations.map (.operation i)
  | _ => []

/-- **What rules can ask of a bearer.** -/
inductive Duty where
  /-- That an attribute it has is one that may be given. -/
  | allowed (b : Bearer) (a : ExtendedAttribute)
  /-- That it gives a text for a name. -/
  | required (b : Bearer) (name : String)
  /-- That an operation takes a delegation, if it asks for one. -/
  | delegation (i : Interface) (op : Operation)

/-- The duties of a bearer, in the order of the check. -/
def dutiesOf (rules : DefinitionRules) : Bearer → List Duty
  | .interface i => i.attributes.map (.allowed (.interface i))
      ++ rules.requiredOfInterface.map (.required (.interface i))
  | .operation i op => op.attributes.map (.allowed (.operation i op))
      ++ rules.requiredOfOperation.map (.required (.operation i op)) ++ [.delegation i op]

/-- **The duties that rules make up for a document.** -/
def duties (rules : DefinitionRules) (ds : List Definition) : List Duty :=
  (ds.flatMap bearersOf).flatMap rules.dutiesOf

/-- **How a duty is broken**, and the finding that this is worth. -/
inductive Breach (rules : DefinitionRules) : Duty → Finding → Prop where
  | allowed {b : Bearer} {a : ExtendedAttribute} (h : a.name ∉ rules.allowed) :
      Breach rules (.allowed b a) (.error .unknownAttribute b.location
        ("unknown extension attribute '" ++ a.name ++ "'"))
  | required {b : Bearer} {n : String} (h : ¬ ExtendedAttribute.FirstHasText b.attributes n) :
      Breach rules (.required b n) (.error .missingAttribute b.location
        ("required attribute '" ++ n ++ "' is missing or has no value"))
  | delegation {i : Interface} {op : Operation}
      (hasks : ∃ a ∈ op.attributes, a.name = rules.delegationAttribute)
      (htakes : ∀ a ∈ op.arguments, ¬ a.type.Named rules.delegationType) :
      Breach rules (.delegation i op) (.error .missingDelegationParameter
        (Bearer.operation i op).location
        ("operation declares [" ++ rules.delegationAttribute ++ "] but takes no '"
          ++ rules.delegationType ++ "' parameter"))

variable {rules : DefinitionRules}

theorem Breach.severity {d : Duty} {f : Finding} (h : rules.Breach d f) : f.severity = .error := by
  cases h <;> rfl

/-! ## The check, bearer by bearer -/

/-- What the check has against a bearer, duplicates aside. -/
def faultsOf (rules : DefinitionRules) : Bearer → List Finding
  | .interface i => rules.checkAllowed i.attributes i.name
      ++ checkRequired rules.requiredOfInterface i.attributes i.name
  | .operation i op => rules.checkAllowed op.attributes (locationOf i.name op)
      ++ checkRequired rules.requiredOfOperation op.attributes (locationOf i.name op)
      ++ rules.checkDelegation op (locationOf i.name op)

theorem location_operation (i : Interface) (op : Operation) :
    (Bearer.operation i op).location = locationOf i.name op := by
  rw [Bearer.location, locationOf]
  split
  · rw [String.append_assoc]
    rfl
  · rfl

theorem reported_checkAllowed (b : Bearer) :
    Reported rules.Breach (b.attributes.map (.allowed b))
      (rules.checkAllowed b.attributes b.location) := by
  refine .map_filter (fun a ha => ?_) fun a ha f hf => ?_
  · exact .allowed (by simpa using ha)
  · cases hf with
    | allowed h => exact h (by simpa using ha)

theorem reported_checkRequired (b : Bearer) (names : List String) :
    Reported rules.Breach (names.map (.required b))
      (checkRequired names b.attributes b.location) := by
  refine .map_filter (fun n hn => ?_) fun n hn f hf => ?_
  · refine .required fun hfirst => ?_
    obtain ⟨text, hread⟩ := ExtendedAttribute.exists_read_iff.mpr hfirst
    rw [hread] at hn
    cases hn
  · cases hf with
    | required h =>
      obtain ⟨text, hread⟩ := Option.isSome_iff_exists.mp (Option.isNone_eq_false_iff.mp hn)
      exact h (ExtendedAttribute.exists_read_iff.mp ⟨text, hread⟩)

theorem reported_checkDelegation (i : Interface) (op : Operation) :
    Reported rules.Breach [.delegation i op]
      (rules.checkDelegation op (Bearer.operation i op).location) := by
  have hbroken : (ExtendedAttribute.has op.attributes rules.delegationAttribute
        && !rules.takesDelegation op) = true
      ↔ (∃ a ∈ op.attributes, a.name = rules.delegationAttribute)
        ∧ ∀ a ∈ op.arguments, ¬ a.type.Named rules.delegationType := by
    simp [ExtendedAttribute.has, takesDelegation, TypeDescriptor.name?_eq_some_iff]
  refine .single (fun h => ?_) fun h f hf => ?_
  · exact .delegation (hbroken.mp h).1 (hbroken.mp h).2
  · cases hf with
    | delegation hasks htakes => exact h (hbroken.mpr ⟨hasks, htakes⟩)

/-- **The faults of a bearer are its broken duties.** -/
theorem reported_faultsOf (b : Bearer) :
    Reported rules.Breach (rules.dutiesOf b) (rules.faultsOf b) := by
  cases b with
  | interface i =>
    exact (reported_checkAllowed (.interface i)).append (reported_checkRequired (.interface i) _)
  | operation i op =>
    rw [faultsOf, ← location_operation]
    exact ((reported_checkAllowed (.operation i op)).append
      (reported_checkRequired (.operation i op) _)).append (reported_checkDelegation i op)

end DefinitionRules

/-! ## Errors and warnings -/

theorem Report.errors_append (fs gs : List Finding) :
    (Report.mk (fs ++ gs)).errors = (Report.mk fs).errors ++ (Report.mk gs).errors :=
  List.filter_append fs gs

theorem Report.warnings_append (fs gs : List Finding) :
    (Report.mk (fs ++ gs)).warnings = (Report.mk fs).warnings ++ (Report.mk gs).warnings :=
  List.filter_append fs gs

namespace DefinitionRules

variable {rules : DefinitionRules}

theorem severity_of_mem_faultsOf {b : Bearer} {f : Finding} (hf : f ∈ rules.faultsOf b) :
    f.severity = .error := by
  obtain ⟨d, -, hbreach⟩ := (reported_faultsOf b).exists_breach hf
  exact hbreach.severity

theorem errors_faultsOf (b : Bearer) :
    (Report.mk (rules.faultsOf b)).errors = rules.faultsOf b := by
  refine List.filter_eq_self.mpr fun f hf => ?_
  rw [severity_of_mem_faultsOf hf]
  rfl

theorem warnings_faultsOf (b : Bearer) : (Report.mk (rules.faultsOf b)).warnings = [] := by
  refine List.filter_eq_nil_iff.mpr fun f hf => ?_
  rw [severity_of_mem_faultsOf hf]
  exact Bool.false_ne_true

theorem errors_checkDuplicate (seen : List String) (op : Operation) (location : String) :
    (Report.mk (checkDuplicate seen op location)).errors = [] := by
  unfold checkDuplicate
  split <;> rfl

theorem checkInterface_eq (i : Interface) :
    rules.checkInterface i
      = rules.faultsOf (.interface i) ++ rules.checkOperations i.name [] i.operations := rfl

/-- The findings about operations: the faults of the first, what there is to say about its name,
and the findings about the others. -/
theorem checkOperations_cons (i : Interface) (seen : List String) (op : Operation)
    (ops : List Operation) :
    rules.checkOperations i.name seen (op :: ops) = rules.faultsOf (.operation i op)
      ++ checkDuplicate seen op (locationOf i.name op)
      ++ rules.checkOperations i.name (op.name :: seen) ops := rfl

theorem errors_checkOperations (i : Interface) (seen : List String) (ops : List Operation) :
    (Report.mk (rules.checkOperations i.name seen ops)).errors
      = (ops.map (.operation i)).flatMap rules.faultsOf := by
  induction ops generalizing seen with
  | nil => rfl
  | cons op ops ih =>
    rw [checkOperations_cons, Report.errors_append, Report.errors_append, errors_faultsOf,
      errors_checkDuplicate, List.append_nil, ih]
    rfl

/-- **The errors of a check are the faults of all bearers**, in the order of the document. -/
theorem errors_check (ds : List Definition) :
    (Report.mk ((Definition.interfaces ds).flatMap rules.checkInterface)).errors
      = (ds.flatMap bearersOf).flatMap rules.faultsOf := by
  induction ds with
  | nil => rfl
  | cons d ds ih =>
    rw [List.flatMap_cons, List.flatMap_append, ← ih]
    cases d with
    | interface i =>
      have herrors : (Report.mk (rules.checkInterface i)).errors
          = (bearersOf (.interface i)).flatMap rules.faultsOf := by
        rw [checkInterface_eq, Report.errors_append, errors_faultsOf, errors_checkOperations]
        rfl
      rw [← herrors, ← Report.errors_append]
      rfl
    | dictionary | enumeration | typedef | other => rfl

end DefinitionRules

/-! ## Documents without an interface -/

/-- What is made of the interfaces of a document cannot be had just if there are none. -/
theorem Definition.ofInterfaces_eq_error_iff {α : Type} (make : Interface → List Interface → α)
    {ds : List Definition} {e : Failure} :
    (match interfaces ds with
      | [] => .error .noInterface
      | i :: is => .ok (make i is)) = Except.error e
      ↔ e = .noInterface ∧ ∀ i, Definition.interface i ∉ ds := by
  rw [← interfaces_eq_nil_iff]
  cases interfaces ds with
  | nil => simp [eq_comm]
  | cons i is => simp

theorem Contract.build_eq_error_iff {ds : List Definition} {e : Failure} :
    build ds = .error e ↔ e = .noInterface ∧ ∀ i, Definition.interface i ∉ ds :=
  Definition.ofInterfaces_eq_error_iff fun i _ => ofInterface i

namespace DefinitionRules

variable {rules : DefinitionRules}

theorem check_eq (ds : List Definition) :
    rules.check ds = match Definition.interfaces ds with
      | [] => .error .noInterface
      | i :: is => .ok ⟨(i :: is).flatMap rules.checkInterface⟩ := by
  rw [check]
  cases Definition.interfaces ds <;> rfl

theorem check_eq_error_iff {ds : List Definition} {e : Failure} :
    rules.check ds = .error e ↔ e = .noInterface ∧ ∀ i, Definition.interface i ∉ ds := by
  rw [check_eq]
  exact Definition.ofInterfaces_eq_error_iff _

/-- A report that can be had is about the interfaces of a document, of which there is a first. -/
theorem check_eq_ok_iff {ds : List Definition} {report : Report} :
    rules.check ds = .ok report ↔ ∃ i is, Definition.interfaces ds = i :: is
      ∧ report = ⟨(i :: is).flatMap rules.checkInterface⟩ := by
  rw [check_eq]
  cases Definition.interfaces ds with
  | nil => simp
  | cons i is =>
    constructor
    · intro h
      exact ⟨i, is, rfl, (Except.ok.inj h).symm⟩
    · rintro ⟨_, _, ⟨⟩, rfl⟩
      rfl

/-- **The errors of a report are the broken duties.** -/
theorem reported_check {ds : List Definition} {report : Report} (h : rules.check ds = .ok report) :
    Reported rules.Breach (rules.duties ds) report.errors := by
  obtain ⟨i, is, hinterfaces, rfl⟩ := check_eq_ok_iff.mp h
  rw [← hinterfaces, errors_check]
  exact .flatMap fun b _ => reported_faultsOf b

/-- **A check finds exactly what definitions do wrong.** It fails where there is no interface and
nowhere else, which is also where there is no contract. Otherwise its errors are those of the
duties that are broken, in order, and the report is valid just if none is. -/
theorem check_definitions_exact (rules : DefinitionRules) (ds : List Definition) :
    (∀ e, rules.check ds = .error e ↔ e = .noInterface ∧ ∀ i, Definition.interface i ∉ ds)
    ∧ (∀ e, Contract.build ds = .error e ↔ e = .noInterface ∧ ∀ i, Definition.interface i ∉ ds)
    ∧ ((∃ i, Definition.interface i ∈ ds) → ∃ report, rules.check ds = .ok report
        ∧ Reported rules.Breach (rules.duties ds) report.errors
        ∧ (report.isValid = true ↔ ∀ d ∈ rules.duties ds, ∀ f, ¬ rules.Breach d f)) := by
  refine ⟨fun e => check_eq_error_iff, fun e => Contract.build_eq_error_iff, ?_⟩
  rintro ⟨i, hi⟩
  cases hcheck : rules.check ds with
  | error e => exact absurd hi ((check_eq_error_iff.mp hcheck).2 i)
  | ok report =>
    exact ⟨report, rfl, reported_check hcheck, (reported_check hcheck).isValid_iff⟩

/-- Two interfaces under rules of their own. A flag in front of a text leaves the first without a
text, an operation without a name has an attribute too many and a list for a text, and the
delegation that `f` takes is one of several things it may be given, until it is declared again. -/
theorem check_definitions_exact_spoilt :
    let rules : DefinitionRules := ⟨["Note", "Auth"], ["Note"], ["Note"], "Auth", "Pass"⟩
    let note : ExtendedAttribute := ⟨"Note", some (.string "\"x\"")⟩
    let takes (type : TypeDescriptor) : List Argument := [⟨"by", type, false, false, []⟩]
    let ds : List Definition := [.other,
      .interface ⟨"A", none, [.other,
        .operation ⟨"", none, [], [⟨"Odd", none⟩, ⟨"Note", some (.list ["x"])⟩]⟩,
        .operation ⟨"f", none, takes (.union [.primitive "Pass", .primitive "long"]),
          [note, ⟨"Auth", none⟩]⟩,
        .operation ⟨"f", none, takes (.nullable (.primitive "Pass")), [⟨"Auth", none⟩, note]⟩],
        [⟨"Note", none⟩, note]⟩,
      .interface ⟨"B", none, [], [⟨"Auth", none⟩]⟩]
    (∃ i, Definition.interface i ∈ ds) ∧ ∃ report, rules.check ds = .ok report
      ∧ Reported rules.Breach (rules.duties ds) report.errors
      ∧ report.errors.map (fun f => (f.kind, f.location))
        = [(.missingAttribute, "A"), (.unknownAttribute, "A.<anonymous>"),
          (.missingAttribute, "A.<anonymous>"), (.missingDelegationParameter, "A.f"),
          (.missingAttribute, "B")]
      ∧ rules.check [.other] = .error .noInterface := by
  intro rules note takes ds
  have hinterface : ∃ i, Definition.interface i ∈ ds :=
    ⟨_, List.mem_cons_of_mem _ List.mem_cons_self⟩
  obtain ⟨report, hcheck, hreported, -⟩ := (check_definitions_exact rules ds).2.2 hinterface
  have hnone := ((check_definitions_exact rules [.other]).1 .noInterface).mpr ⟨rfl, by simp⟩
  refine ⟨hinterface, report, hcheck, hreported, ?_, hnone⟩
  obtain rfl := Except.ok.inj hcheck
  decide

end DefinitionRules

end IntentContract
