import IntentContract.Proofs.Definition.Wire
import IntentContract.Proofs.Grammar.RoundTrip
import IntentContract.Proofs.TypeDescriptor.Items

/-!
# The texts of types that a document has

A document can have any well-formed type: one line that gives a name to the type is enough, also
where the type is called like the mark of a special operation. And it can have no other
(`ofDocument_iff`). So what is shown of well-formed types is shown of all that the parser ever comes
up with.

Of these types two have the same text just if they have the same items (`text_eq_iff_items_eq`).
Nothing else about a type reaches the text, and nothing about the items is lost in it, although
the text has no parentheses around unions and has one bar for alternatives and for arguments.
-/

namespace IntentContract.TypeDescriptor

variable {d e : TypeDescriptor}

/-- **A type that a document has**: it stands in a definition that some text is parsed to. -/
def OfDocument (d : TypeDescriptor) : Prop :=
  ∃ source ds, parse source = .ok ds ∧ ∃ definition ∈ ds, d ∈ definition.types

/-- A document that gives a name to a type is read back. -/
theorem parse_print_typedef (h : d.WellFormed .parsed) {n : String}
    (hn : Lexicon.printed.name n) :
    parse (print [.typedef ⟨n, d, []⟩]) = .ok [.typedef ⟨n, d, []⟩] := by
  have hreads : Parser.Reads Grammar.definition (fun _ => True)
      (Definition.typedef ⟨n, d, []⟩).tokens (.typedef ⟨n, d, []⟩) :=
    Grammar.reads_definition_typedef hn h (List.forall_mem_nil _)
  refine parse_eq_ok_iff.mpr ⟨_, tokens?_print (List.forall_mem_singleton.mpr hreads.printable), ?_⟩
  rw [List.flatMap_cons, List.flatMap_nil, Grammar.document_of_definition (hreads.run [] trivial),
    Grammar.document_nil]
  rfl

/-- **The types that documents have are the well-formed ones.** -/
theorem ofDocument_iff : d.OfDocument ↔ d.WellFormed .parsed := by
  constructor
  · rintro ⟨source, ds, hparse, definition, hmem, hd⟩
    obtain ⟨ts, hrow, hts⟩ := exists_inRow_of_parse hparse
    exact (hrow.wellFormed hts definition hmem).of_mem_types d hd
  · intro h
    exact ⟨_, _, parse_print_typedef h (by decide : Lexicon.printed.name "T"), _,
      List.mem_cons_self, List.mem_cons_self⟩

/-- **The text of a type can be read in one way.** Two types that documents have are shown by the
same text just if they have the same items: the same names at their leaves, and around them the same
generics, however the unions, the arguments and the marks of nullability were put together. -/
theorem text_eq_iff_items_eq (hd : d.OfDocument) (he : e.OfDocument) :
    d.text = e.text ↔ d.items = e.items := by
  rw [ofDocument_iff] at hd he
  refine ⟨items_eq_of_text_eq hd he, fun h => ?_⟩
  rw [← String.toList_inj, toList_text hd, toList_text he, h]

/-- A union inside of a generic and two arguments of a generic. Their marks of nullability are at
different places, and they have different names for arrays and for numbers. -/
theorem text_eq_iff_items_eq_flattened :
    let d : TypeDescriptor := .union [.primitive "A", .generic "sequence"
      [.union [.primitive "B", .nullable (.primitive "unsigned long")]]]
    let e : TypeDescriptor := .nullable (.union [.primitive "A", .generic "Array"
      [.primitive "B", .primitive "double"]])
    d.OfDocument ∧ e.OfDocument ∧ d.text = "A | Array<B | number>" ∧ d.text = e.text
      ∧ d.items = e.items := by
  intro d e
  let t : Typedef := ⟨"T", d, []⟩
  have hd : parse " typedef (A or sequence<(B or unsigned long?)>) T;"
      = .ok [.typedef t] := by
    with_unfolding_all rfl
  have he : parse "interface I \x7b (A or Array<B, double>)? f(); \x7d;"
      = .ok [.interface ⟨"I", none, [.operation ⟨"f", some e, [], []⟩], []⟩] := by
    with_unfolding_all rfl
  have hd' : d.OfDocument := ⟨_, _, hd, _, List.mem_cons_self, List.mem_cons_self⟩
  have he' : e.OfDocument := ⟨_, _, he, _, List.mem_cons_self, List.mem_cons_self⟩
  have htext : d.text = e.text := by decide
  exact ⟨hd', he', by decide, htext, (text_eq_iff_items_eq hd' he').mp htext⟩

end IntentContract.TypeDescriptor
