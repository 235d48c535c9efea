import IntentContract.Proofs.Grammar.Document
import IntentContract.Proofs.Grammar.Indifference.Definitions
import IntentContract.Proofs.Grammar.Prompt.Attributes
import IntentContract.Proofs.Text.Row
import IntentContract.Proofs.Token.Onward

/-!
# Values with and without quotes

The value of an extended attribute can be written in quotes or, if it is made of names joined by
colons, without. The two are read in different ways: the quoted text is one token, whose quotes are
taken off when the attribute is looked up, and the names are tokens of their own that the grammar
joins again. Behind a colon, though, it takes identifiers only and no keywords.

So a document with the value in quotes and the same document without come to the same contract as
long as no name but the first is a keyword, and otherwise the one without quotes is not parsed at
all (`parse_unquoted_iff`).
-/

namespace IntentContract

namespace Grammar

open IntentContract.Parser

variable {ts xs ys rest : List Token} {v w : AttributeValue}

/-! ## Where a value is due -/

theorem asksNoName_skipParens : AsksNoName skipParens := by
  intro ts h
  unfold skipParens at h
  split at h
  · split at h
    · cases h
    · cases h
  · cases h

/-- A value that has begun does not miss a name behind an equals sign. -/
theorem attributeValue_ne_error (hlast : ts.getLast? = some (.symbol .equals)) :
    attributeValue ts ≠ .error ⟨.identifier, []⟩ := by
  by_cases hl : ts.head? = some (.symbol .lparen)
  · obtain ⟨rest, rfl⟩ := List.head?_eq_some_iff.mp hl
    have hnames : Shuns (Parser.commaList Parser.name >>= fun names =>
        Parser.symbol .rparen >>= fun _ => pure (AttributeValue.list names)) := by
      refine (shuns_name.commaList closed_name.peeks).bind (local_commaList closed_name.peeks)
        fun names => ?_
      exact (shuns_symbol (by decide)).bind (closed_symbol _).peeks fun _ => shuns_pure _
    exact (ShunsAt.cons (attributeValue_lparen rest) (hnames rest) (by simp) hlast).1
  · intro h
    have hrest := congrArg SyntaxError.rest (attributeValue_eq_error hl h)
    exact ne_nil_of_getLast? hlast hrest.symm

/-- Behind the name of an attribute and an equals sign stands its value. -/
theorem extendedAttribute_equals {t : Token} {n : String} (ht : t.name? = some n)
    (ts : List Token) :
    extendedAttribute (t :: .symbol .equals :: ts) = (attributeValue >>= fun v =>
      skipParens >>= fun _ => pure (⟨n, some v⟩ : ExtendedAttribute)) ts := by
  refine (bind_of_ok (name_cons ht _)).trans ?_
  refine (bind_of_ok (eat_eq_ok_iff.mpr (.inl ⟨rfl, rfl⟩))).trans ?_
  exact bind_pure_bind some

/-- **An attribute breaks off before its value**, and nowhere else. -/
theorem eq_of_breaksOff_extendedAttribute (h : BreaksOff extendedAttribute ts) :
    ∃ t n, t.name? = some n ∧ ts = [t, .symbol .equals] := by
  obtain ⟨herror, hlast⟩ := h
  have hend : ∀ (n : String) (value : Option AttributeValue),
      AsksNoName (skipParens >>= fun _ => pure (⟨n, value⟩ : ExtendedAttribute)) :=
    fun n value => asksNoName_skipParens.bind fun _ => asksNoName_pure _
  cases hname : Parser.name ts with
  | error e =>
    obtain rfl := Except.error.inj ((bind_of_error hname).symm.trans herror)
    exact absurd hname (shuns_name ts hlast).1
  | ok r =>
    obtain ⟨n, mid⟩ := r
    obtain ⟨t, rfl, ht⟩ := name_eq_ok_iff.mp hname
    by_cases hequals : mid.head? = some (.symbol .equals)
    · obtain ⟨rest, rfl⟩ := List.head?_eq_some_iff.mp hequals
      refine ⟨t, n, ht, ?_⟩
      by_contra hne
      have hrest : rest ≠ [] := by
        rintro rfl
        exact hne rfl
      rw [extendedAttribute_equals ht] at herror
      have hlast' : rest.getLast? = some (.symbol .equals) := by
        rwa [← List.singleton_append, ← List.singleton_append (l := rest), ← List.append_assoc,
          getLast?_append_of_ne_nil hrest] at hlast
      have hbreak := BreaksOff.of_bind ⟨herror, hlast'⟩ fun v => hend n (some v)
      exact attributeValue_ne_error hlast' hbreak.1
    · have heat := eat_eq_ok_iff.mpr (.inr ⟨rfl, rfl, hequals⟩)
      rw [show extendedAttribute (t :: mid) = _ from
        (bind_of_ok (name_cons ht mid)).trans (bind_of_ok heat)] at herror
      exact absurd herror (hend n none mid)

/-- Values with the same text, and the same tokens behind them. -/
theorem indifferent_extendedAttribute (hv : attributeValue xs = .ok (v, rest))
    (hw : attributeValue ys = .ok (w, rest)) (htext : v.text? = w.text?) :
    Indifferent xs ys ExtendedAttribute.reading extendedAttribute := by
  intro ts hts
  obtain ⟨t, n, ht, rfl⟩ := eq_of_breaksOff_extendedAttribute hts
  show view _ (extendedAttribute (t :: .symbol .equals :: xs))
    = view _ (extendedAttribute (t :: .symbol .equals :: ys))
  rw [extendedAttribute_equals ht, extendedAttribute_equals ht]
  refine view_bind (g := AttributeValue.text?) ?_ fun v w hvw => ?_
  · rw [hv, hw]
    exact view_eq_iff.mpr (.inr ⟨v, w, rest, rfl, rfl, htext⟩)
  · exact Alike.bind fun _ => alike_pure (Prod.ext rfl hvw)

theorem asksNoName_rbracket (attrs : List ExtendedAttribute) :
    AsksNoName (Parser.symbol .rbracket >>= fun _ => pure attrs) :=
  (asksNoName_symbol _).bind fun _ => asksNoName_pure attrs

theorem indifferent_attributes
    (h : Indifferent xs ys ExtendedAttribute.reading extendedAttribute) :
    Indifferent xs ys (List.map ExtendedAttribute.reading) attributes := by
  refine (shuns_eat (by simp)).indifferent_bind (peeks_eat _) fun _ => ?_
  refine Indifferent.ite ?_ (shuns_pure []).indifferent
  exact (h.commaList local_extendedAttribute).bind_asksNoName
    (fun attrs attrs' hsame => Alike.bind fun _ => alike_pure hsame) asksNoName_rbracket

/-- **A value that ends before a colon** leaves the attributes without their bracket, as if nothing
had followed. -/
theorem indifferent_attributes_of_colon (hv : attributeValue xs = .ok (v, .symbol .colon :: rest)) :
    Indifferent xs [] (List.map ExtendedAttribute.reading) attributes := by
  refine (shuns_eat (by simp)).indifferent_bind (peeks_eat _) fun _ => ?_
  refine Indifferent.ite (fun ts hts => ?_) (shuns_pure []).indifferent
  obtain ⟨init, us, hus, hgo⟩ := (hts.of_bind asksNoName_rbracket).commaList local_extendedAttribute
  obtain ⟨t, n, ht, rfl⟩ := eq_of_breaksOff_extendedAttribute hus
  have hitem : extendedAttribute ([t, .symbol .equals] ++ xs)
      = .ok (⟨n, some v⟩, .symbol .colon :: rest) :=
    extendedAttribute_of_value ht hv (skipParens_of_ne (by simp))
  have hlist : Parser.commaList extendedAttribute (ts ++ xs)
      = .ok (init ++ [⟨n, some v⟩], .symbol .colon :: rest) := by
    rw [hgo, bind_of_ok (commaList_of_end hitem (by simp))]
    rfl
  rw [bind_of_ok hlist, List.append_nil, hts.1]
  exact view_eq_iff.mpr (.inl ⟨_, _, rfl, rfl⟩)

/-! ## Names joined by colons -/

/-- The tokens of names joined by colons. -/
def joinedTokens (first : String) (more : List String) : List Token :=
  .ofWord first :: more.flatMap fun n => [.symbol .colon, .ofWord n]

theorem flatMap_ofWord {names : List String} (h : ∀ n ∈ names, Keyword.ofSpelling? n = none) :
    (names.flatMap fun n => [.symbol .colon, Token.ofWord n]) = joined names := by
  refine List.flatMap_congr fun n hn => ?_
  rw [Token.ofWord, h n hn]

/-- Names of which only the first may be a keyword are a value. -/
theorem attributeValue_joinedTokens {first : String} {more : List String}
    (h : ∀ n ∈ more, Keyword.ofSpelling? n = none)
    (hrest : ∀ n rest', rest ≠ .symbol .colon :: .identifier n :: rest') :
    attributeValue (joinedTokens first more ++ rest)
      = .ok (.identifier (Text.join ":" (first :: more)), rest) := by
  rw [joinedTokens, flatMap_ofWord h]
  exact attributeValue_names (Token.name?_ofWord first) more hrest

/-- A keyword behind a colon is not joined, and neither is what follows it. -/
theorem qualifiers_of_keyword {n : String} {more : List String} (hn : n ∈ more)
    (hk : Keyword.ofSpelling? n ≠ none) (rest : List Token) :
    ∃ text rest', qualifiers ((more.flatMap fun n => [.symbol .colon, Token.ofWord n]) ++ rest)
      = (text, .symbol .colon :: rest') := by
  induction more with
  | nil => cases hn
  | cons m more ih =>
    rw [List.flatMap_cons, List.append_assoc, List.cons_append, List.singleton_append]
    by_cases hm : Keyword.ofSpelling? m = none
    · have hmem : n ∈ more := by
        rcases List.mem_cons.mp hn with rfl | hmem
        · exact absurd hm hk
        · exact hmem
      obtain ⟨text, rest', hrun⟩ := ih hmem
      rw [Token.ofWord, hm]
      dsimp only
      rw [qualifiers, hrun]
      exact ⟨_, rest', rfl⟩
    · obtain ⟨keyword, hkeyword⟩ := Option.ne_none_iff_exists'.mp hm
      rw [Token.ofWord, hkeyword]
      exact ⟨_, _, rfl⟩

/-- A keyword behind a colon ends the value before a colon. -/
theorem attributeValue_of_keyword (first : String) {n : String} {more : List String}
    (hn : n ∈ more) (hk : Keyword.ofSpelling? n ≠ none) (rest : List Token) :
    ∃ v rest', attributeValue (joinedTokens first more ++ rest)
      = .ok (v, .symbol .colon :: rest') := by
  obtain ⟨text, rest', hrun⟩ := qualifiers_of_keyword hn hk rest
  have hread : ReadsValue (.ofWord first
      :: ((more.flatMap fun n => [.symbol .colon, Token.ofWord n]) ++ rest)) _ _ :=
    .names (Token.name?_ofWord first)
  rw [hrun] at hread
  exact ⟨_, rest', attributeValue_eq_ok_iff.mpr hread⟩

end Grammar

/-! ## The text around a value -/

namespace Scan

/-- **The tokens of a text that ends with a symbol**, and closes all its comments, do not depend on
what follows. -/
theorem tokens?_append_of_symbol {cs : List Char} {ps : List Piece} {g : Gap}
    (h : pieces cs = .ok (ps, g.text))
    (hlast : ∀ t ∈ (ps.map (·.token)).getLast?, ∃ s, t = .symbol s) (more : List Char) :
    tokens? (cs ++ more) = (tokens? more).map (ps.map (·.token) ++ ·) := by
  refine tokens?_append_of_stops h fun t ht => ?_
  obtain ⟨s, rfl⟩ := hlast t ht
  trivial

/-- Words joined by colons are scanned as the words and the colons. -/
theorem tokens?_join {first : String} {more : List String} {rest : List Char}
    (hnames : ∀ n ∈ first :: more, isWord n = true)
    (hrest : ∀ c ∈ rest.head?, isWordPart c = false) :
    tokens? ((Text.join ":" (first :: more)).toList ++ rest)
      = (tokens? rest).map (Grammar.joinedTokens first more ++ ·) := by
  have hspells : ∀ n ∈ first :: more, Spells n.toList (.ofWord n) :=
    fun n hn => Token.spells_ofWord (hnames n hn)
  induction more generalizing first with
  | nil =>
    exact tokens?_of_spells (hspells first List.mem_cons_self) (stops_ofWord.mpr hrest)
  | cons n more ih =>
    have hcolon : Spells ":".toList (.symbol .colon) := .symbol rfl
    have hstops : Stops (.ofWord first)
        (":".toList ++ ((Text.join ":" (n :: more)).toList ++ rest)) := by
      refine stops_ofWord.mpr fun c hc => ?_
      obtain rfl : ':' = c := Option.some.inj hc
      decide
    rw [Text.toList_join_cons_cons, List.append_assoc, List.append_assoc,
      tokens?_of_spells (hspells first List.mem_cons_self) hstops, tokens?_of_spells hcolon trivial,
      ih (fun m hm => hnames m (List.mem_cons_of_mem _ hm))
        (fun m hm => hspells m (List.mem_cons_of_mem _ hm)), Option.map_map, Option.map_map]
    rfl

/-- Words joined by colons have no quote. -/
theorem quote_not_mem_join {names : List String} (h : ∀ n ∈ names, isWord n = true) :
    '"' ∉ (Text.join ":" names).toList :=
  Text.not_mem_join (by decide) fun n hn => not_mem_of_isWord (h n hn) (by decide) (by decide)

/-- A text in quotes is scanned as a string. -/
theorem tokens?_quoted {content : String} (h : '"' ∉ content.toList) (rest : List Char) :
    tokens? ((quoted content).toList ++ rest) = (tokens? rest).map (.string content :: ·) :=
  tokens?_of_spells (t := .string content) (Token.isPrintable_string h) trivial

end Scan

/-! ## Documents with and without quotes -/

/-- **A text that awaits a value**: its tokens break off behind the equals sign of an extended
attribute, and no comment is left open. -/
def AwaitsValue (before : String) : Prop :=
  ∃ (ps : List Piece) (g : Scan.Gap), Scan.pieces before.toList = .ok (ps, g.text)
    ∧ Grammar.document (ps.map (·.token)) = .error ⟨.identifier, []⟩
    ∧ (ps.map (·.token)).getLast? = some (.symbol .equals)

/-- **A text that leaves a value as it is**: it goes on neither with the last word nor with a colon
and an identifier. -/
def LeavesValue (after : String) : Prop :=
  (∀ c ∈ after.toList.head?, Scan.isWordPart c = false)
    ∧ ∀ n ts, Scan.tokens? after.toList ≠ some (.symbol .colon :: .identifier n :: ts)

/-- What becomes of a text, up to the contract. -/
theorem toOption_parse_build (source : String) :
    (parse source).toOption.map Contract.build
      = (Scan.tokens? source.toList).bind fun ts =>
        (Grammar.document ts).toOption.map Contract.build := by
  rw [toOption_parse, Option.map_bind]
  rfl

theorem toOption_ofSource (source : String) :
    (Contract.ofSource source).toOption
      = ((parse source).toOption.map Contract.build).bind Except.toOption := by
  unfold Contract.ofSource
  cases parse source <;> rfl

/-- Behind a text that awaits a value the tokens go on as they are. -/
theorem AwaitsValue.tokens? {before : String} (h : AwaitsValue before) :
    ∃ ts, Grammar.document ts = .error ⟨.identifier, []⟩ ∧ ts.getLast? = some (.symbol .equals)
      ∧ ∀ more, Scan.tokens? (before.toList ++ more) = (Scan.tokens? more).map (ts ++ ·) := by
  obtain ⟨ps, g, hpieces, hdocument, hlast⟩ := h
  refine ⟨ps.map (·.token), hdocument, hlast, Scan.tokens?_append_of_symbol hpieces ?_⟩
  rw [hlast]
  rintro t ⟨⟩
  exact ⟨.equals, rfl⟩

section Value

variable {before after first : String} {more : List String}

/-- **Without a keyword behind a colon** the quotes make no difference to the contract. -/
theorem toOption_parse_unquoted (hbefore : AwaitsValue before) (hafter : LeavesValue after)
    (hnames : ∀ n ∈ first :: more, isWord n = true)
    (hfree : ∀ n ∈ more, Keyword.ofSpelling? n = none) :
    (parse (before ++ Text.join ":" (first :: more) ++ after)).toOption.map Contract.build
      = (parse (before ++ quoted (Text.join ":" (first :: more)) ++ after)).toOption.map
        Contract.build := by
  obtain ⟨ts, hdocument, hlast, htokens⟩ := hbefore.tokens?
  rw [toOption_parse_build, toOption_parse_build]
  simp only [String.toList_append, List.append_assoc]
  rw [htokens, htokens, Scan.tokens?_join hnames hafter.1,
    Scan.tokens?_quoted (Scan.quote_not_mem_join hnames)]
  cases hback : Scan.tokens? after.toList with
  | none => rfl
  | some back =>
    have hrest : ∀ n ts, back ≠ .symbol .colon :: .identifier n :: ts := by
      rintro n ts rfl
      exact hafter.2 n ts hback
    have hquoted : Grammar.attributeValue (.string (Text.join ":" (first :: more)) :: back)
        = .ok (.string (quoted (Text.join ":" (first :: more))), back) := rfl
    have hitem := Grammar.indifferent_extendedAttribute
      (Grammar.attributeValue_joinedTokens hfree hrest) hquoted
      (congrArg some (unquote_quoted _).symm)
    exact Grammar.document_indifferent (Grammar.indifferent_attributes hitem) hdocument hlast

/-- **With a keyword behind a colon** there is no document without quotes. -/
theorem toOption_parse_of_keyword (hbefore : AwaitsValue before) (hafter : LeavesValue after)
    (hnames : ∀ n ∈ first :: more, isWord n = true) {n : String} (hn : n ∈ more)
    (hk : Keyword.ofSpelling? n ≠ none) :
    (parse (before ++ Text.join ":" (first :: more) ++ after)).toOption.map Contract.build
      = none := by
  obtain ⟨ts, hdocument, hlast, htokens⟩ := hbefore.tokens?
  rw [toOption_parse_build]
  simp only [String.toList_append, List.append_assoc]
  rw [htokens, Scan.tokens?_join hnames hafter.1]
  cases hback : Scan.tokens? after.toList with
  | none => rfl
  | some back =>
    obtain ⟨v, rest, hvalue⟩ := Grammar.attributeValue_of_keyword first hn hk back
    have hsame := Grammar.document_indifferent (Grammar.indifferent_attributes_of_colon hvalue)
      hdocument hlast
    rw [List.append_nil, hdocument] at hsame
    exact hsame

/-- **Values with and without quotes.** Where a value is due, names joined by colons and the same
text in quotes are parsed alike and give the same contract, unless a name behind a colon is a
keyword: then the document without quotes is not parsed. -/
theorem parse_unquoted_iff (hbefore : AwaitsValue before) (hafter : LeavesValue after)
    (hnames : ∀ n ∈ first :: more, isWord n = true) :
    let value := Text.join ":" (first :: more)
    ((parse (before ++ value ++ after)).toOption.isSome
        ↔ (parse (before ++ quoted value ++ after)).toOption.isSome
          ∧ ∀ n ∈ more, Keyword.ofSpelling? n = none)
      ∧ ((∀ n ∈ more, Keyword.ofSpelling? n = none) →
        (Contract.ofSource (before ++ value ++ after)).toOption
          = (Contract.ofSource (before ++ quoted value ++ after)).toOption) := by
  intro value
  have hsome : ∀ source, (parse source).toOption.isSome
      = ((parse source).toOption.map Contract.build).isSome := fun _ => Option.isSome_map.symm
  constructor
  · by_cases hfree : ∀ n ∈ more, Keyword.ofSpelling? n = none
    · rw [hsome, hsome, toOption_parse_unquoted hbefore hafter hnames hfree]
      exact (and_iff_left hfree).symm
    · obtain ⟨n, hn, hk⟩ : ∃ n ∈ more, Keyword.ofSpelling? n ≠ none := by simpa using hfree
      rw [hsome, toOption_parse_of_keyword hbefore hafter hnames hn hk]
      exact ⟨fun h => (nomatch h), fun h => absurd h.2 hfree⟩
  · intro hfree
    rw [toOption_ofSource, toOption_ofSource, toOption_parse_unquoted hbefore hafter hnames hfree]

end Value

/-- The first name may be a keyword, and a comment may stand in front of the value. -/
theorem parse_unquoted_iff_keyword_first :
    AwaitsValue "interface I \x7b [Intent= /* v */" ∧ LeavesValue "] void f(); \x7d;"
      ∧ (∀ n ∈ ["interface", "v-1", "run"], isWord n = true)
      ∧ (Contract.ofSource ("interface I \x7b [Intent= /* v */"
            ++ Text.join ":" ["interface", "v-1", "run"] ++ "] void f(); \x7d;")).toOption
        = (Contract.ofSource ("interface I \x7b [Intent= /* v */"
            ++ quoted (Text.join ":" ["interface", "v-1", "run"])
            ++ "] void f(); \x7d;")).toOption := by
  have hbefore : AwaitsValue "interface I \x7b [Intent= /* v */" := by
    refine ⟨[⟨[], .keyword .interface, "interface".toList⟩, ⟨[' '], .identifier "I", ['I']⟩,
      ⟨[' '], .symbol .lbrace, ['\x7b']⟩, ⟨[' '], .symbol .lbracket, ['[']⟩,
      ⟨[], .identifier "Intent", "Intent".toList⟩, ⟨[], .symbol .equals, ['=']⟩],
      [.blank ' ' rfl, .block " v ".toList rfl], ?_, ?_, rfl⟩
    · with_unfolding_all rfl
    · with_unfolding_all rfl
  have hafter : LeavesValue "] void f(); \x7d;" := by
    refine ⟨fun c hc => ?_, fun n ts h => ?_⟩
    · obtain rfl : ']' = c := Option.some.inj hc
      decide
    · have htokens : (Scan.tokens? "] void f(); \x7d;".toList).map List.head?
          = some (some (.symbol .rbracket)) := by with_unfolding_all rfl
      rw [h] at htokens
      cases htokens
  have hnames : ∀ n ∈ ["interface", "v-1", "run"], isWord n = true := by decide
  exact ⟨hbefore, hafter, hnames, (parse_unquoted_iff hbefore hafter hnames).2 (by decide)⟩

/-- **A keyword behind a colon needs quotes.** -/
theorem keyword_behind_colon :
    (parse "interface I \x7b [Intent=agent:interface] void f(); \x7d;").toOption.isSome = false
      ∧ (parse "interface I \x7b [Intent=\"agent:interface\"] void f(); \x7d;").toOption.isSome
        = true := by
  constructor
  · with_unfolding_all rfl
  · with_unfolding_all rfl

end IntentContract
