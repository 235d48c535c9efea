import IntentContract.Definition.Wire
import IntentContract.Proofs.Json.Record
import IntentContract.Proofs.TypeDescriptor.Wire
import IntentContract.Proofs.Grammar.Image

/-!
# Definitions read back

The tree of a document is written as JSON with every field, and read from JSON in which most
fields may be missing. What was written reads back as it was, in all but one place. A type that is
unknown is written as `null`, and where a type may be absent, as the result of an operation or
the type of an attribute, `null` is read as an absent one. So `Definition.readBack` says what a
definition reads back as, and it is written as the definition was: from then on nothing changes.

Two things have to be known of a tree for this. Its generics must have names, which holds of every
tree that is read (`Definition.yields_kinded`). And for the tree to read back as itself, its types
must be known, which holds of every tree that comes from a text.

A record may also be given as the list of its fields. What is written is always an object, but the
list of the fields it is written with reads the same (`Definition.ofJson_itemized`).
-/

namespace IntentContract

open Json (Yields asList asOption yields_any yields_pure yields_defaulted yields_asList
  yields_asOption)

/-! ## What reading back gives -/

/-- A type that may be absent, with an unknown one as absent. -/
def TypeDescriptor.known : Option TypeDescriptor → Option TypeDescriptor
  | some .unknown => none
  | d => d

/-- What an operation reads back as. -/
def Operation.readBack (op : Operation) : Operation :=
  { op with returns := TypeDescriptor.known op.returns }

/-- What an attribute of an interface reads back as. -/
def Property.readBack (p : Property) : Property :=
  { p with type := TypeDescriptor.known p.type }

/-- What a member reads back as. -/
def Member.readBack : Member → Member
  | .operation op => .operation op.readBack
  | .property p => .property p.readBack
  | .other => .other

/-- What an interface reads back as. -/
def Interface.readBack (i : Interface) : Interface :=
  { i with members := i.members.map Member.readBack }

/-- **What a definition reads back as.** -/
def Definition.readBack : Definition → Definition
  | .interface i => .interface i.readBack
  | d => d

theorem TypeDescriptor.known_of_ne {t : TypeDescriptor} (h : t ≠ .unknown) :
    known (some t) = some t := by
  unfold known
  split
  · next heq => exact absurd (Option.some.inj heq) h
  · rfl

theorem TypeDescriptor.optionToJson_known (d : Option TypeDescriptor) :
    optionToJson (known d) = optionToJson d := by
  unfold known
  split <;> rfl

theorem Member.toJson_readBack (m : Member) : m.readBack.toJson = m.toJson := by
  cases m with
  | operation op =>
    rw [readBack, toJson, Operation.toFields, Operation.readBack, TypeDescriptor.optionToJson_known]
    rfl
  | property p =>
    rw [readBack, toJson, Property.toFields, Property.readBack, TypeDescriptor.optionToJson_known]
    rfl
  | other => rfl

/-- **What a definition reads back as is written the same.** -/
theorem Definition.toJson_readBack (d : Definition) : d.readBack.toJson = d.toJson := by
  cases d with
  | interface i =>
    have hmembers : (i.members.map Member.readBack).map Member.toJson
        = i.members.map Member.toJson := by
      rw [List.map_map]
      exact List.map_congr_left fun m _ => m.toJson_readBack
    rw [readBack, Interface.readBack, toJson, hmembers]
    rfl
  | dictionary | enumeration | typedef | other => rfl

/-! ## The types of a definition -/

/-- The types in a member of an interface. -/
def Member.types : Member → List TypeDescriptor
  | .operation op => op.returns.toList ++ op.arguments.map (·.type)
  | .property p => p.type.toList
  | .other => []

/-- **The types that stand in a definition.** -/
def Definition.types : Definition → List TypeDescriptor
  | .interface i => i.members.flatMap Member.types
  | .dictionary d => d.fields.map (·.type)
  | .enumeration _ => []
  | .typedef t => [t.type]
  | .other => []

/-! ## Reading what was written

The fields of a record are read by their names, wherever they stand. So a proof states what is
left to do when they have been found, and goes on with the parts. -/

section

variable (isNothing : Json → Bool)

theorem AttributeValue.ofJson_toJson (v : AttributeValue) :
    AttributeValue.ofJson isNothing v.toJson = .ok v := by
  cases v with
  | identifier text => rfl
  | string raw => rfl
  | list names =>
    have hnames : asList Json.asString (Json.strings names) = .ok names :=
      Json.asList_map_self fun _ _ => rfl
    show (asList Json.asString (Json.strings names)
      >>= fun names => pure (AttributeValue.list names)) = _
    rw [hnames]
    rfl

theorem ExtendedAttribute.ofJson_toJson (a : ExtendedAttribute) :
    ExtendedAttribute.ofJson isNothing a.toJson = .ok a := by
  obtain ⟨name, value⟩ := a
  cases value with
  | none => rfl
  | some v =>
    have hne : v.toJson ≠ .null := by cases v <;> simp [AttributeValue.toJson]
    show (asOption (AttributeValue.ofJson isNothing) v.toJson
      >>= fun value => pure (ExtendedAttribute.mk name value)) = _
    rw [Json.asOption_of_ne_null hne (AttributeValue.ofJson_toJson isNothing v)]
    rfl

theorem ExtendedAttribute.asList_listToJson (attributes : List ExtendedAttribute) :
    asList (ExtendedAttribute.ofJson isNothing) (ExtendedAttribute.listToJson attributes)
      = .ok attributes :=
  Json.asList_map_self fun a _ => ofJson_toJson isNothing a

/-- A type that may be absent reads back, an unknown one as absent. -/
theorem TypeDescriptor.asOption_optionToJson {d : Option TypeDescriptor}
    (h : ∀ t ∈ d, t.Kinded) : asOption read (optionToJson d) = .ok (known d) := by
  cases d with
  | none => rfl
  | some t =>
    by_cases ht : t = .unknown
    · subst ht
      rfl
    · rw [known_of_ne ht]
      exact Json.asOption_of_ne_null (mt toJson_eq_null_iff.mp ht)
        (congrArg Except.ok (ofJson_toJson (h t rfl)))

theorem Argument.ofJson_toJson {a : Argument} (h : a.type.Kinded) :
    Argument.ofJson isNothing a.toJson = .ok a := by
  show (asList (ExtendedAttribute.ofJson isNothing) (ExtendedAttribute.listToJson a.attributes)
    >>= fun attributes => pure (Argument.mk a.name (TypeDescriptor.ofJson a.type.toJson) a.optional
      a.variadic attributes)) = _
  rw [ExtendedAttribute.asList_listToJson, TypeDescriptor.ofJson_toJson h]
  rfl

theorem Operation.ofJson_toJson {op : Operation}
    (h : ∀ t ∈ (Member.operation op).types, t.Kinded) :
    Operation.ofJson isNothing (Member.operation op).toJson = .ok op.readBack := by
  rw [Member.types, List.forall_mem_append, List.forall_mem_map] at h
  have hreturns := TypeDescriptor.asOption_optionToJson fun t ht => h.1 t (Option.mem_toList.mpr ht)
  have harguments : asList (Argument.ofJson isNothing) (.arr (op.arguments.map Argument.toJson))
      = .ok op.arguments :=
    Json.asList_map_self fun a ha => Argument.ofJson_toJson isNothing (h.2 a ha)
  show (asOption TypeDescriptor.read (TypeDescriptor.optionToJson op.returns)
    >>= fun returns => asList (Argument.ofJson isNothing) (.arr (op.arguments.map Argument.toJson))
    >>= fun arguments => asList (ExtendedAttribute.ofJson isNothing)
      (ExtendedAttribute.listToJson op.attributes)
    >>= fun attributes => pure (Operation.mk op.name returns arguments attributes)) = _
  rw [hreturns, harguments, ExtendedAttribute.asList_listToJson]
  rfl

theorem Property.ofJson_toJson {p : Property} (h : ∀ t ∈ (Member.property p).types, t.Kinded) :
    Property.ofJson isNothing (Member.property p).toJson = .ok p.readBack := by
  have htype := TypeDescriptor.asOption_optionToJson fun t ht => h t (Option.mem_toList.mpr ht)
  show (asOption TypeDescriptor.read (TypeDescriptor.optionToJson p.type)
    >>= fun type => asList (ExtendedAttribute.ofJson isNothing)
      (ExtendedAttribute.listToJson p.attributes)
    >>= fun attributes => pure (Property.mk p.name type p.readonly attributes)) = _
  rw [htype, ExtendedAttribute.asList_listToJson]
  rfl

theorem Member.ofJson_toJson {m : Member} (h : ∀ t ∈ m.types, t.Kinded) :
    Member.ofJson isNothing m.toJson = .ok m.readBack := by
  cases m with
  | operation op =>
    show (Operation.ofJson isNothing (Member.operation op).toJson
      >>= fun op => pure (Member.operation op)) = _
    rw [Operation.ofJson_toJson isNothing h]
    rfl
  | property p =>
    show (Property.ofJson isNothing (Member.property p).toJson
      >>= fun p => pure (Member.property p)) = _
    rw [Property.ofJson_toJson isNothing h]
    rfl
  | other => rfl

theorem Field.ofJson_toJson {f : Field} (h : f.type.Kinded) :
    Field.ofJson isNothing f.toJson = .ok f := by
  show (asList (ExtendedAttribute.ofJson isNothing) (ExtendedAttribute.listToJson f.attributes)
    >>= fun attributes => pure (Field.mk f.name (TypeDescriptor.ofJson f.type.toJson) f.required
      attributes)) = _
  rw [ExtendedAttribute.asList_listToJson, TypeDescriptor.ofJson_toJson h]
  rfl

theorem Interface.ofJson_toJson {i : Interface} (h : ∀ m ∈ i.members, ∀ t ∈ m.types, t.Kinded) :
    Interface.ofJson isNothing (Definition.interface i).toJson = .ok i.readBack := by
  have hmembers : asList (Member.ofJson isNothing) (.arr (i.members.map Member.toJson))
      = .ok (i.members.map Member.readBack) :=
    Json.asList_map fun m hm => Member.ofJson_toJson isNothing (h m hm)
  show (asOption Json.asString (Json.optional i.inherits)
    >>= fun inherits => asList (Member.ofJson isNothing) (.arr (i.members.map Member.toJson))
    >>= fun members => asList (ExtendedAttribute.ofJson isNothing)
      (ExtendedAttribute.listToJson i.attributes)
    >>= fun attributes => pure (Interface.mk i.name inherits members attributes)) = _
  rw [Json.asOption_optional, hmembers, ExtendedAttribute.asList_listToJson]
  rfl

theorem Dictionary.ofJson_toJson {d : Dictionary} (h : ∀ f ∈ d.fields, f.type.Kinded) :
    Dictionary.ofJson isNothing (Definition.dictionary d).toJson = .ok d := by
  have hfields : asList (Field.ofJson isNothing) (.arr (d.fields.map Field.toJson))
      = .ok d.fields :=
    Json.asList_map_self fun f hf => Field.ofJson_toJson isNothing (h f hf)
  show (asOption Json.asString (Json.optional d.inherits)
    >>= fun inherits => asList (Field.ofJson isNothing) (.arr (d.fields.map Field.toJson))
    >>= fun fields => asList (ExtendedAttribute.ofJson isNothing)
      (ExtendedAttribute.listToJson d.attributes)
    >>= fun attributes => pure (Dictionary.mk d.name inherits fields attributes)) = _
  rw [Json.asOption_optional, hfields, ExtendedAttribute.asList_listToJson]
  rfl

theorem Enumeration.ofJson_toJson (e : Enumeration) :
    Enumeration.ofJson isNothing (Definition.enumeration e).toJson = .ok e := by
  have hvalues : asList Json.asString (Json.strings e.values) = .ok e.values :=
    Json.asList_map_self fun _ _ => rfl
  show (asList Json.asString (Json.strings e.values)
    >>= fun values => asList (ExtendedAttribute.ofJson isNothing)
      (ExtendedAttribute.listToJson e.attributes)
    >>= fun attributes => pure (Enumeration.mk e.name values attributes)) = _
  rw [hvalues, ExtendedAttribute.asList_listToJson]
  rfl

theorem Typedef.ofJson_toJson {t : Typedef} (h : t.type.Kinded) :
    Typedef.ofJson isNothing (Definition.typedef t).toJson = .ok t := by
  show (asList (ExtendedAttribute.ofJson isNothing) (ExtendedAttribute.listToJson t.attributes)
    >>= fun attributes => pure (Typedef.mk t.name (TypeDescriptor.ofJson t.type.toJson)
      attributes)) = _
  rw [ExtendedAttribute.asList_listToJson, TypeDescriptor.ofJson_toJson h]
  rfl

/-- **A definition reads back**, if its generics have names. -/
theorem Definition.ofJson_toJson {d : Definition} (h : ∀ t ∈ d.types, t.Kinded) :
    Definition.ofJson isNothing d.toJson = .ok d.readBack := by
  cases d with
  | interface i =>
    show (Interface.ofJson isNothing (Definition.interface i).toJson
      >>= fun i => pure (Definition.interface i)) = _
    rw [Interface.ofJson_toJson isNothing (List.forall_mem_flatMap.mp h)]
    rfl
  | dictionary d =>
    show (Dictionary.ofJson isNothing (Definition.dictionary d).toJson
      >>= fun d => pure (Definition.dictionary d)) = _
    rw [Dictionary.ofJson_toJson isNothing (List.forall_mem_map.mp h)]
    rfl
  | enumeration e =>
    show (Enumeration.ofJson isNothing (Definition.enumeration e).toJson
      >>= fun e => pure (Definition.enumeration e)) = _
    rw [Enumeration.ofJson_toJson]
    rfl
  | typedef t =>
    show (Typedef.ofJson isNothing (Definition.typedef t).toJson
      >>= fun t => pure (Definition.typedef t)) = _
    rw [Typedef.ofJson_toJson isNothing (List.forall_mem_singleton.mp h)]
    rfl
  | other => rfl

/-! ## What can be read -/

theorem TypeDescriptor.yields_kinded (v : Json) : Yields Kinded (TypeDescriptor.read v) := by
  rintro _ ⟨⟩
  exact kinded_ofJson v

theorem Argument.yields_kinded (v : Json) :
    Yields (fun a => a.type.Kinded) (Argument.ofJson isNothing v) := by
  refine (yields_any _).bind fun fields _ => (yields_any _).bind fun name _ => ?_
  refine (yields_defaulted .unknown TypeDescriptor.yields_kinded fields).bind fun type htype => ?_
  refine (yields_any _).bind fun optional _ => (yields_any _).bind fun variadic _ => ?_
  exact (yields_any _).bind fun attributes _ => yields_pure htype

theorem Operation.yields_kinded (v : Json) :
    Yields (fun op => ∀ t ∈ (Member.operation op).types, t.Kinded)
      (Operation.ofJson isNothing v) := by
  refine (yields_any _).bind fun fields _ => (yields_any _).bind fun name _ => ?_
  refine (yields_defaulted nofun (yields_asOption TypeDescriptor.yields_kinded) fields).bind
    fun returns hreturns => ?_
  refine (yields_defaulted nofun (yields_asList (Argument.yields_kinded isNothing)) fields).bind
    fun arguments harguments => (yields_any _).bind fun attributes _ => yields_pure ?_
  refine List.forall_mem_append.mpr ⟨fun t ht => ?_, List.forall_mem_map.mpr harguments⟩
  exact hreturns t (Option.mem_toList.mp ht)

theorem Property.yields_kinded (v : Json) :
    Yields (fun p => ∀ t ∈ (Member.property p).types, t.Kinded)
      (Property.ofJson isNothing v) := by
  refine (yields_any _).bind fun fields _ => (yields_any _).bind fun name _ => ?_
  refine (yields_defaulted nofun (yields_asOption TypeDescriptor.yields_kinded) fields).bind
    fun type htype => (yields_any _).bind fun readonly _ => ?_
  refine (yields_any _).bind fun attributes _ => yields_pure fun t ht => ?_
  exact htype t (Option.mem_toList.mp ht)

theorem Member.yields_kinded (v : Json) :
    Yields (fun m => ∀ t ∈ m.types, t.Kinded) (Member.ofJson isNothing v) := by
  refine (yields_any _).bind fun tagged _ => ?_
  obtain ⟨kind, content⟩ := tagged
  refine Yields.ite ((Operation.yields_kinded isNothing content).bind fun _ hop =>
    yields_pure hop) ?_
  refine Yields.ite ((Property.yields_kinded isNothing content).bind fun _ hp =>
    yields_pure hp) ?_
  exact (yields_any _).bind fun _ _ => yields_pure nofun

theorem Interface.yields_kinded (v : Json) :
    Yields (fun i => ∀ m ∈ i.members, ∀ t ∈ m.types, t.Kinded) (Interface.ofJson isNothing v) := by
  refine (yields_any _).bind fun fields _ => (yields_any _).bind fun name _ => ?_
  refine (yields_any _).bind fun inherits _ => ?_
  refine (yields_defaulted nofun (yields_asList (Member.yields_kinded isNothing)) fields).bind
    fun members hmembers => ?_
  exact (yields_any _).bind fun attributes _ => yields_pure hmembers

theorem Field.yields_kinded (v : Json) :
    Yields (fun f => f.type.Kinded) (Field.ofJson isNothing v) := by
  refine (yields_any _).bind fun fields _ => (yields_any _).bind fun name _ => ?_
  refine (yields_defaulted .unknown TypeDescriptor.yields_kinded fields).bind fun type htype => ?_
  refine (yields_any _).bind fun required _ => ?_
  exact (yields_any _).bind fun attributes _ => yields_pure htype

theorem Dictionary.yields_kinded (v : Json) :
    Yields (fun d => ∀ f ∈ d.fields, f.type.Kinded) (Dictionary.ofJson isNothing v) := by
  refine (yields_any _).bind fun fields _ => (yields_any _).bind fun name _ => ?_
  refine (yields_any _).bind fun inherits _ => ?_
  refine (yields_defaulted nofun (yields_asList (Field.yields_kinded isNothing)) fields).bind
    fun members hmembers => ?_
  exact (yields_any _).bind fun attributes _ => yields_pure hmembers

theorem Typedef.yields_kinded (v : Json) :
    Yields (fun t => t.type.Kinded) (Typedef.ofJson isNothing v) := by
  refine (yields_any _).bind fun fields _ => (yields_any _).bind fun name _ => ?_
  refine (yields_defaulted .unknown TypeDescriptor.yields_kinded fields).bind fun type htype => ?_
  exact (yields_any _).bind fun attributes _ => yields_pure htype

/-- **The generics of a definition that is read have names.** -/
theorem Definition.yields_kinded (v : Json) :
    Yields (fun d => ∀ t ∈ d.types, t.Kinded) (Definition.ofJson isNothing v) := by
  refine (yields_any _).bind fun tagged _ => ?_
  obtain ⟨kind, content⟩ := tagged
  refine Yields.ite ((Interface.yields_kinded isNothing content).bind fun i hi =>
    yields_pure ?_) ?_
  · exact List.forall_mem_flatMap.mpr hi
  refine Yields.ite ((Dictionary.yields_kinded isNothing content).bind fun d hd =>
    yields_pure ?_) ?_
  · exact List.forall_mem_map.mpr hd
  refine Yields.ite ((yields_any _).bind fun _ _ => yields_pure nofun) ?_
  refine Yields.ite ((Typedef.yields_kinded isNothing content).bind fun t ht => yields_pure ?_) ?_
  · exact List.forall_mem_singleton.mpr ht
  exact (yields_any _).bind fun _ _ => yields_pure nofun

/-! ## Lists in the place of objects -/

/-- A JSON value with the list of its fields in the place of an object. -/
def Json.itemized : Json → Json
  | .obj fields => .arr (fields.map Prod.snd)
  | v => v

/-- **The list of its fields reads as the definition does**: all fields are written, and in the
order in which a list is read. -/
theorem Definition.ofJson_itemized (d : Definition) :
    Definition.ofJson isNothing d.toJson.itemized = Definition.ofJson isNothing d.toJson := by
  cases d with
  | interface | dictionary | enumeration | typedef | other => rfl

end

/-! ## What a text gives -/

/-- The generics of a well-formed type have names. -/
theorem TypeDescriptor.WellFormed.kinded {d : TypeDescriptor} (h : d.WellFormed .parsed) :
    d.Kinded := by
  induction h with
  | primitive => exact .primitive _
  | union _ _ ih => exact .union ih
  | generic hk _ _ ih =>
    refine .generic ?_ ih
    rintro rfl
    have hempty : isTypeName "" = true := hk
    exact absurd hempty (by decide)
  | nullable _ _ ih => exact .nullable ih

theorem TypeDescriptor.WellFormed.ne_unknown {L : Lexicon} {d : TypeDescriptor}
    (h : d.WellFormed L) : d ≠ .unknown := by
  rintro rfl
  cases h

/-- The types of a well-formed member are well-formed. -/
theorem Member.WellFormed.of_mem_types {L : Lexicon} {m : Member} (h : m.WellFormed L) :
    ∀ t ∈ m.types, t.WellFormed L := by
  cases m with
  | operation op =>
    have hop : op.WellFormed L := h
    obtain ⟨d, hd, hwf⟩ := hop.returns
    rw [types, hd, List.forall_mem_append, List.forall_mem_map]
    exact ⟨List.forall_mem_singleton.mpr hwf, fun a ha => (hop.arguments a ha).type⟩
  | property p =>
    have hp : p.WellFormed L := h
    obtain ⟨d, hd, hwf⟩ := hp.type
    rw [types, hd]
    exact List.forall_mem_singleton.mpr hwf
  | other => exact nofun

/-- **The types of a well-formed definition are well-formed.** -/
theorem Definition.WellFormed.of_mem_types {L : Lexicon} {d : Definition} (h : d.WellFormed L) :
    ∀ t ∈ d.types, t.WellFormed L := by
  cases d with
  | interface i =>
    have hi : i.WellFormed L := h
    exact List.forall_mem_flatMap.mpr fun m hm => (hi.members m hm).of_mem_types
  | dictionary d =>
    have hd : d.WellFormed L := h
    exact List.forall_mem_map.mpr fun f hf => (hd.fields f hf).type
  | enumeration => exact nofun
  | typedef t =>
    have ht : t.WellFormed L := h
    exact List.forall_mem_singleton.mpr ht.type
  | other => exact nofun

theorem Definition.WellFormed.kinded {d : Definition} (h : d.WellFormed .parsed) :
    ∀ t ∈ d.types, t.Kinded := fun t ht =>
  (h.of_mem_types t ht).kinded

theorem Member.WellFormed.readBack_eq {L : Lexicon} {m : Member} (h : m.WellFormed L) :
    m.readBack = m := by
  cases m with
  | operation op =>
    have hop : op.WellFormed L := h
    obtain ⟨d, hd, hwf⟩ := hop.returns
    rw [readBack, Operation.readBack, hd, TypeDescriptor.known_of_ne hwf.ne_unknown, ← hd]
  | property p =>
    have hp : p.WellFormed L := h
    obtain ⟨d, hd, hwf⟩ := hp.type
    rw [readBack, Property.readBack, hd, TypeDescriptor.known_of_ne hwf.ne_unknown, ← hd]
  | other => rfl

/-- **A well-formed definition reads back as itself.** -/
theorem Definition.WellFormed.readBack_eq {L : Lexicon} {d : Definition} (h : d.WellFormed L) :
    d.readBack = d := by
  cases d with
  | interface i =>
    have hi : i.WellFormed L := h
    have hmembers : i.members.map Member.readBack = i.members := by
      rw [List.map_congr_left fun m hm => (hi.members m hm).readBack_eq, List.map_id']
    rw [readBack, Interface.readBack, hmembers]
  | dictionary | enumeration | typedef | other => rfl

/-! ## The round trip -/

namespace Definition

/-- A document reads back, definition by definition. -/
theorem listOfJson_listToJson {ds : List Definition} (h : ∀ d ∈ ds, ∀ t ∈ d.types, t.Kinded) :
    listOfJson (listToJson ds) = .ok (ds.map readBack) :=
  Json.asList_map fun d hd => ofJson_toJson isNothing (h d hd)

theorem listToJson_map_readBack (ds : List Definition) :
    listToJson (ds.map readBack) = listToJson ds := by
  rw [listToJson, listToJson, List.map_map]
  exact congrArg Json.arr (List.map_congr_left fun d _ => d.toJson_readBack)

theorem listOfJson_itemized (ds : List Definition) :
    listOfJson (.arr (ds.map fun d => d.toJson.itemized)) = listOfJson (listToJson ds) := by
  show (ds.map fun d => d.toJson.itemized).mapM (ofJson isNothing)
    = (ds.map toJson).mapM (ofJson isNothing)
  rw [List.mapM_map, List.mapM_map]
  exact congrArg (ds.mapM ·) (funext (ofJson_itemized isNothing))

/-- **Documents survive the way through JSON.** The definitions of a text read back from the JSON
they are written as, and so they do from lists of the fields. Definitions that were read from any
JSON are written as JSON that can be read again, and what is read from it is written the same. -/
theorem wire_round_trip :
    (∀ source ds, parse source = .ok ds → listOfJson (listToJson ds) = .ok ds
      ∧ listOfJson (.arr (ds.map fun d => d.toJson.itemized)) = .ok ds)
    ∧ ∀ v ds, listOfJson v = .ok ds →
        ∃ again, listOfJson (listToJson ds) = .ok again ∧ listToJson again = listToJson ds := by
  constructor
  · intro source ds h
    obtain ⟨ts, hrow, hts⟩ := exists_inRow_of_parse h
    have hwf := hrow.wellFormed hts
    have hread : listOfJson (listToJson ds) = .ok ds := by
      rw [listOfJson_listToJson fun d hd => (hwf d hd).kinded,
        List.map_congr_left fun d hd => (hwf d hd).readBack_eq, List.map_id']
    exact ⟨hread, (listOfJson_itemized ds).trans hread⟩
  · intro v ds h
    have hkinded := yields_asList (yields_kinded isNothing) v ds h
    exact ⟨_, listOfJson_listToJson hkinded, listToJson_map_readBack ds⟩

/-- A text with a nullable generic and a list of names, and a JSON value that has lists in the place
of objects and leaves out most fields, gives the kind of a member or of a value by its place and has
a number where a type should be. -/
theorem wire_round_trip_sparse :
    (∃ d, parse "[k=(a, b)] typedef sequence<(A or B)>? T;" = .ok [d]
      ∧ listOfJson (listToJson [d]) = .ok [d] ∧ listOfJson (.arr [d.toJson.itemized]) = .ok [d])
    ∧ ∃ ds again, listOfJson (.arr [.arr [.str "interface", .str "Foo"], .arr [.str "namespace"],
        .obj [("name", .str "I"), ("type", .str "interface"), ("members", .arr
          [.obj [("type", .int 0), ("idlType", .int 5)], .arr [.int 1, .str "a"], .arr [.int 2]]),
          ("extAttrs", .arr [.arr [.str "k", .arr [.int 2, Json.strings ["x"]]]])]]) = .ok ds
      ∧ listOfJson (listToJson ds) = .ok again ∧ listToJson again = listToJson ds := by
  let t : Typedef := ⟨"T",
    .nullable (.generic "sequence" [.union [.primitive "A", .primitive "B"]]),
    [⟨"k", some (.list ["a", "b"])⟩]⟩
  have hparse : parse "[k=(a, b)] typedef sequence<(A or B)>? T;" = .ok [.typedef t] := by
    with_unfolding_all rfl
  have hread : listOfJson (.arr [.arr [.str "interface", .str "Foo"], .arr [.str "namespace"],
      .obj [("name", .str "I"), ("type", .str "interface"), ("members", .arr
        [.obj [("type", .int 0), ("idlType", .int 5)], .arr [.int 1, .str "a"], .arr [.int 2]]),
        ("extAttrs", .arr [.arr [.str "k", .arr [.int 2, Json.strings ["x"]]]])]])
      = .ok [.interface ⟨"Foo", none, [], []⟩, .other,
        .interface ⟨"I", none, [.operation ⟨"", some .unknown, [], []⟩,
          .property ⟨"a", none, false, []⟩, .other], [⟨"k", some (.list ["x"])⟩]⟩] := rfl
  obtain ⟨again, hagain, hsame⟩ := wire_round_trip.2 _ _ hread
  exact ⟨⟨_, hparse, wire_round_trip.1 _ _ hparse⟩, _, again, hread, hagain, hsame⟩

end Definition

end IntentContract
