import IntentContract.Proofs.Grammar.Locality
import IntentContract.Proofs.Token.Spacing

/-!
# A document is its definitions, one behind the other

Since a definition is closed, a document is read one definition at a time, and
what was read does not depend on what comes next. So documents can be put one
behind the other: on separate lines their texts give the definitions of the first
and then those of the second, and the whole is in order exactly if the second
part is (`parse_append_newline`).

`toOption_parse` is the view of `parse` that this and the statements on spacing
and printing go by: the tokens of the text, and the document that they make up.
Positions have a part in the messages of errors only.
-/

namespace IntentContract

namespace Grammar

variable {ts rest : List Token} {d : Definition}

/-! ## Definitions in a row -/

/-- A document without tokens has no definitions. -/
theorem document_nil : document [] = .ok [] := by
  rw [document, Parser.untilStop_of_stop rfl]
  rfl

/-- The first definition of a document, and the document behind it. -/
theorem document_of_definition (h : definition ts = .ok (d, rest)) :
    document ts = (document rest).map (d :: ·) := by
  obtain ⟨used, rfl, hused, -⟩ := closed_definition ts h
  obtain ⟨t, used', rfl⟩ := List.exists_cons_of_length_pos hused
  have hlt : rest.length < (t :: used' ++ rest).length := by
    rw [List.length_append]
    omega
  rw [document, document, Parser.untilStop_of_item rfl h hlt]
  cases hrest : Parser.untilStop (·.isNone) definition rest with
  | error e => rw [Parser.bind_of_error hrest]; rfl
  | ok r => rw [Parser.bind_of_ok hrest]; rfl

/-- **Definitions in a row**: each is read from where the one before ends, and no
token is left behind the last. -/
inductive InRow : List Token → List Definition → Prop where
  | nil : InRow [] []
  | cons {ts rest : List Token} {d : Definition} {ds : List Definition}
      (h : definition ts = .ok (d, rest)) (hrest : InRow rest ds) : InRow ts (d :: ds)

/-- A document that is read has its definitions in a row. -/
theorem inRow_of_document {ts : List Token} {ds : List Definition}
    (h : document ts = .ok ds) : InRow ts ds := by
  cases hts : ts with
  | nil =>
    rw [hts, document_nil] at h
    obtain rfl := Except.ok.inj h
    exact .nil
  | cons t ts' =>
    cases hd : definition ts with
    | error e =>
      have herr : Parser.untilStop (·.isNone) definition ts = .error e := by
        show Parser.itemsUntil _ _ _ = _
        rw [Parser.itemsUntil, hd, hts]
        rfl
      rw [document, herr] at h
      cases h
    | ok r =>
      obtain ⟨d, rest⟩ := r
      have hlt : rest.length < ts.length := by
        obtain ⟨used, hused, hlen, -⟩ := closed_definition ts hd
        rw [hused, List.length_append]
        omega
      rw [document_of_definition hd] at h
      cases hrest : document rest with
      | error e => rw [hrest] at h; cases h
      | ok ds' =>
        rw [hrest] at h
        obtain rfl : d :: ds' = ds := Except.ok.inj h
        rw [← hts]
        exact .cons hd (inRow_of_document hrest)
termination_by ts.length

/-- Definitions in a row are read as a document, and whatever is put behind them
as the document behind it. -/
theorem InRow.document_append {ds : List Definition} (h : InRow ts ds) (more : List Token) :
    document (ts ++ more) = (document more).map (ds ++ ·) := by
  induction h with
  | nil =>
    rw [List.nil_append]
    cases document more <;> rfl
  | @cons ts rest d ds hd _ ih =>
    -- the reader of a definition does not look behind it, so any tokens may follow
    obtain ⟨used, rfl, -, hrun⟩ := closed_definition ts hd
    rw [List.append_assoc, document_of_definition (hrun (rest ++ more) rfl), ih]
    cases document more <;> rfl

end Grammar

/-! ## Texts -/

/-- **The definitions of a text** are those of the document that its tokens make
up. -/
theorem toOption_parse (source : String) :
    (parse source).toOption
      = (Scan.tokens? source.toList).bind fun ts => (Grammar.document ts).toOption := by
  rw [Scan.tokens?_toList, parse]
  cases scan source with
  | error e => rfl
  | ok scanned =>
    show _ = (Grammar.document scanned.tokens).toOption
    dsimp only
    cases Grammar.document scanned.tokens <;> rfl

/-- A text that is parsed is one whose tokens make up a document. -/
theorem parse_eq_ok_iff {source : String} {ds : List Definition} :
    parse source = .ok ds
      ↔ ∃ ts, Scan.tokens? source.toList = some ts ∧ Grammar.document ts = .ok ds := by
  have hopt : ∀ {ε α : Type} {x : Except ε α} {a : α}, x = .ok a ↔ x.toOption = some a := by
    intro ε α x a
    cases x <;> simp [Except.toOption]
  rw [hopt, toOption_parse, Option.bind_eq_some_iff]
  simp only [hopt]

/-- **Parsing two texts on separate lines**: behind a text that is parsed, another
one may follow exactly if it is parsed by itself, and the definitions are those of
the first and then those of the second. -/
theorem parse_append_newline {s : String} {ds : List Definition} (h : parse s = .ok ds)
    (t : String) (all : List Definition) :
    parse (s ++ "\n" ++ t) = .ok all
      ↔ ∃ more, parse t = .ok more ∧ all = ds ++ more := by
  obtain ⟨ts, hts, hds⟩ := parse_eq_ok_iff.mp h
  have htokens : Scan.tokens? (s ++ "\n" ++ t).toList
      = (Scan.tokens? t.toList).map (ts ++ ·) := by
    rw [String.toList_append, String.toList_append, List.append_assoc]
    exact Scan.tokens?_append hts t.toList
  have hrow := Grammar.inRow_of_document hds
  simp only [parse_eq_ok_iff, htokens, Option.map_eq_some_iff]
  constructor
  · rintro ⟨_, ⟨us, hus, rfl⟩, hall⟩
    rw [hrow.document_append] at hall
    cases hmore : Grammar.document us with
    | error e => rw [hmore] at hall; cases hall
    | ok more =>
      rw [hmore] at hall
      exact ⟨more, ⟨us, hus, hmore⟩, (Except.ok.inj hall).symm⟩
  · rintro ⟨more, ⟨us, hus, hmore⟩, rfl⟩
    refine ⟨ts ++ us, ⟨us, hus, rfl⟩, ?_⟩
    rw [hrow.document_append, hmore]
    rfl

/-- The first text may end with a comment. -/
theorem parse_append_newline_dictionary :
    parse "dictionary A \x7b\x7d; // a" = .ok [.dictionary ⟨"A", none, [], []⟩]
      ∧ parse ("dictionary A \x7b\x7d; // a" ++ "\n" ++ "enum B \x7b \"b\" \x7d;")
          = .ok [.dictionary ⟨"A", none, [], []⟩, .enumeration ⟨"B", ["b"], []⟩] := by
  have hfirst : parse "dictionary A \x7b\x7d; // a"
      = .ok [.dictionary ⟨"A", none, [], []⟩] := by
    with_unfolding_all rfl
  have hsecond : parse "enum B \x7b \"b\" \x7d;" = .ok [.enumeration ⟨"B", ["b"], []⟩] := by
    with_unfolding_all rfl
  exact ⟨hfirst, (parse_append_newline hfirst _ _).mpr ⟨_, hsecond, rfl⟩⟩

end IntentContract
