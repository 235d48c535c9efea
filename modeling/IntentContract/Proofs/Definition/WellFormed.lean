import IntentContract.Definition.Grammar

/-!
# Well-formed definitions

A tree of definitions can hold more than a document can say: a type that could not
be read, a union of one, a name with a blank in it. This module says which trees
are **well-formed**. The conditions on the shape of a tree are the same wherever
well-formed trees occur. What may stand as a name, as the name of a type and as the
value of an extended attribute differs, and is given by a `Lexicon`.

There are two lexicons. `Lexicon.parsed` is what the parser can come up with.
`Lexicon.printed` is narrower. It leaves out the few words that are read otherwise in
some places: `long` behind a type that it prolongs, `mixin` behind `interface`, and
the marks of special operations in front of a type. Fractional numbers are left out as
well, since a fraction is not always read back from its text as the same token.
-/

namespace IntentContract

/-! ## Words -/

/-- A word: a letter or an underscore, and then also digits and minus signs. -/
def isWord (s : String) : Bool :=
  match s.toList with
  | [] => false
  | c :: cs => Scan.isWordStart c && cs.all Scan.isWordPart

/-- The characters of a word. -/
theorem isWord_iff {s : String} :
    isWord s = true ↔ ∃ c cs, s.toList = c :: cs ∧ Scan.isWordStart c = true
      ∧ ∀ d ∈ cs, Scan.isWordPart d = true := by
  unfold isWord
  split
  · next hs => simp [hs]
  · next c cs hs =>
    rw [hs, Bool.and_eq_true_iff, List.all_eq_true]
    constructor
    · exact fun h => ⟨c, cs, rfl, h⟩
    · rintro ⟨_, _, ⟨⟩, h⟩
      exact h

/-- A keyword is a word. -/
theorem isWord_keyword (k : Keyword) : isWord k.spelling = true := by
  cases k <;> rfl

/-- A word that is no keyword. -/
def isIdentifier (s : String) : Bool :=
  isWord s && (Keyword.ofSpelling? s).isNone

/-- The primitives of several words, each with its words. -/
def compoundNames : List (String × List String) :=
  [("unsigned short", ["unsigned", "short"]),
    ("unsigned long", ["unsigned", "long"]),
    ("unsigned long long", ["unsigned", "long", "long"]),
    ("long long", ["long", "long"]),
    ("unrestricted float", ["unrestricted", "float"]),
    ("unrestricted double", ["unrestricted", "double"])]

/-- A name of a type: a primitive of several words, or an identifier that does not
begin one. -/
def isTypeName (n : String) : Bool :=
  (compoundNames.lookup n).isSome
    || (isIdentifier n && n != "unsigned" && n != "unrestricted")

/-! ## Values -/

/-- **The values with an exact text**: a string literal in its quotes, a whole
number in the range of integers, names joined by colons – only the first may be a
keyword – and a list of names that is not empty. -/
inductive AttributeValue.Exact : AttributeValue → Prop where
  | string {content : String} (h : '"' ∉ content.toList) : Exact (.string (quoted content))
  | integer {n : Int} (h : Scan.inIntegerRange n = true) : Exact (.identifier (Text.intText n))
  | names {first : String} {more : List String} (h : isWord first = true)
      (hmore : ∀ n ∈ more, isIdentifier n = true) :
      Exact (.identifier (Text.join ":" (first :: more)))
  | list {names : List String} (hne : names ≠ []) (h : ∀ n ∈ names, isWord n = true) :
      Exact (.list names)

/-! ## Lexicons -/

/-- **A lexicon**: what may stand as a name, as the name of a type, and as the value
of an extended attribute. -/
structure Lexicon where
  name : String → Prop
  typeName : String → Prop
  value : AttributeValue → Prop

namespace Lexicon

/-- What the parser takes from a text. -/
def parsed : Lexicon where
  name n := isWord n = true
  typeName n := isTypeName n = true
  value v := v.Exact ∨ ∃ x : Double, v = .identifier (x.text floatStyle)

/-- What reads the same wherever it is printed. -/
def printed : Lexicon where
  name n := isWord n = true ∧ n ≠ "long" ∧ n ≠ "mixin"
  typeName n := isTypeName n = true ∧ Grammar.isModifier (.identifier n) = false
  value v := v.Exact

instance : DecidablePred printed.name :=
  fun n => inferInstanceAs (Decidable (isWord n = true ∧ n ≠ _ ∧ n ≠ _))

instance : DecidablePred printed.typeName :=
  fun n => inferInstanceAs (Decidable (isTypeName n = true ∧ _ = false))

end Lexicon

/-! ## Trees -/

/-- Whether a type is marked as nullable. -/
def TypeDescriptor.isNullable : TypeDescriptor → Bool
  | .nullable _ => true
  | _ => false

/-- **A well-formed type**: no part of it is unknown, a union has alternatives, a
generic has arguments, and nothing is marked as nullable twice. -/
inductive TypeDescriptor.WellFormed (L : Lexicon) : TypeDescriptor → Prop where
  | primitive {n : String} (h : L.typeName n) : WellFormed L (.primitive n)
  | union {members : List TypeDescriptor} (htwo : 2 ≤ members.length)
      (h : ∀ m ∈ members, WellFormed L m) : WellFormed L (.union members)
  | generic {kind : String} {args : List TypeDescriptor} (hk : L.typeName kind)
      (hne : args ≠ []) (h : ∀ a ∈ args, WellFormed L a) : WellFormed L (.generic kind args)
  | nullable {d : TypeDescriptor} (h : WellFormed L d) (hn : d.isNullable = false) :
      WellFormed L (.nullable d)

/-- A type is well-formed by any lexicon that has its names. -/
theorem TypeDescriptor.WellFormed.mono {L L' : Lexicon} (hL : ∀ n, L.typeName n → L'.typeName n)
    {d : TypeDescriptor} (h : d.WellFormed L) : d.WellFormed L' := by
  induction h with
  | primitive hn => exact .primitive (hL _ hn)
  | union htwo _ ih => exact .union htwo ih
  | generic hk hne _ ih => exact .generic (hL _ hk) hne ih
  | nullable _ hn ih => exact .nullable ih hn

/-- What can be printed can be parsed. -/
theorem TypeDescriptor.WellFormed.parsed {d : TypeDescriptor} (h : d.WellFormed .printed) :
    d.WellFormed .parsed :=
  h.mono fun n (hn : Lexicon.printed.typeName n) => hn.1

/-- A well-formed extended attribute. -/
structure ExtendedAttribute.WellFormed (L : Lexicon) (a : ExtendedAttribute) : Prop where
  name : L.name a.name
  value : ∀ v ∈ a.value, L.value v

/-- A well-formed argument. -/
structure Argument.WellFormed (L : Lexicon) (a : Argument) : Prop where
  name : L.name a.name
  type : a.type.WellFormed L
  attributes : ∀ x ∈ a.attributes, x.WellFormed L

/-- A well-formed operation: it has a type, and its name may be empty. -/
structure Operation.WellFormed (L : Lexicon) (op : Operation) : Prop where
  name : op.name = "" ∨ L.name op.name
  returns : ∃ d, op.returns = some d ∧ d.WellFormed L
  arguments : ∀ a ∈ op.arguments, a.WellFormed L
  attributes : ∀ x ∈ op.attributes, x.WellFormed L

/-- A well-formed attribute of an interface: it has a type. -/
structure Property.WellFormed (L : Lexicon) (p : Property) : Prop where
  name : L.name p.name
  type : ∃ d, p.type = some d ∧ d.WellFormed L
  attributes : ∀ x ∈ p.attributes, x.WellFormed L

/-- A well-formed member of an interface. -/
def Member.WellFormed (L : Lexicon) : Member → Prop
  | .operation op => op.WellFormed L
  | .property p => p.WellFormed L
  | .other => True

/-- A well-formed interface. -/
structure Interface.WellFormed (L : Lexicon) (i : Interface) : Prop where
  name : L.name i.name
  inherits : ∀ n ∈ i.inherits, L.name n
  members : ∀ m ∈ i.members, m.WellFormed L
  attributes : ∀ x ∈ i.attributes, x.WellFormed L

/-- A well-formed field of a dictionary. -/
structure Field.WellFormed (L : Lexicon) (f : Field) : Prop where
  name : L.name f.name
  type : f.type.WellFormed L
  attributes : ∀ x ∈ f.attributes, x.WellFormed L

/-- A well-formed dictionary. -/
structure Dictionary.WellFormed (L : Lexicon) (d : Dictionary) : Prop where
  name : L.name d.name
  inherits : ∀ n ∈ d.inherits, L.name n
  fields : ∀ f ∈ d.fields, f.WellFormed L
  attributes : ∀ x ∈ d.attributes, x.WellFormed L

/-- A well-formed enumeration: it has values, and none with a quote. -/
structure Enumeration.WellFormed (L : Lexicon) (e : Enumeration) : Prop where
  name : L.name e.name
  nonempty : e.values ≠ []
  values : ∀ v ∈ e.values, '"' ∉ v.toList
  attributes : ∀ x ∈ e.attributes, x.WellFormed L

/-- A well-formed name for a type. -/
structure Typedef.WellFormed (L : Lexicon) (t : Typedef) : Prop where
  name : L.name t.name
  type : t.type.WellFormed L
  attributes : ∀ x ∈ t.attributes, x.WellFormed L

/-- **A well-formed definition**: one of the four kinds, well-formed itself. -/
def Definition.WellFormed (L : Lexicon) : Definition → Prop
  | .interface i => i.WellFormed L
  | .dictionary d => d.WellFormed L
  | .enumeration e => e.WellFormed L
  | .typedef t => t.WellFormed L
  | .other => False

end IntentContract
